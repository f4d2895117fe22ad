import RlStatsApi.EventFilters
import RlStatsApi.EventValues

/-!
# Tracking a player

A tracker takes a snapshot of the first player of its name in each frame and
returns it when it is not equal to the one before. Equality compares speeds
as floating-point numbers, so that a snapshot whose speed is NaN differs
from itself and is returned every time.
-/

set_option autoImplicit false

namespace RlStatsApi.PlayerTracking
open RlStatsApi.BinaryFloat RlStatsApi.JsonValue RlStatsApi.Error RlStatsApi.EventData
open RlStatsApi.EventParsing RlStatsApi.EventValues RlStatsApi.EventFilters

structure PlayerSnapshot where
  matchGuid : Option String
  frame : Option I64
  timeSeconds : Option I64
  name : String
  primaryId : Option String
  teamNum : Option I64
  score : Option I64
  goals : Option I64
  shots : Option I64
  assists : Option I64
  saves : Option I64
  touches : Option I64
  demos : Option I64
  speed : Option F64
  boost : Option I64
  bBoosting : Option Bool
  bSupersonic : Option Bool

def PlayerSnapshot.fromUpdate (update : UpdateStateData) (player : UpdateStatePlayer) :
    PlayerSnapshot where
  matchGuid := update.matchGuid
  frame := update.game.frame
  timeSeconds := update.game.timeSeconds
  name := player.name.getD ""
  primaryId := player.primaryId
  teamNum := player.teamNum
  score := player.score
  goals := player.goals
  shots := player.shots
  assists := player.assists
  saves := player.saves
  touches := player.touches
  demos := player.demos
  speed := effectiveSpeed player
  boost := effectiveBoost player
  bBoosting := effectiveBoosting player
  bSupersonic := effectiveSupersonic player

/-! ## Equality -/

/-- Equality of floating-point numbers: the zeros are equal, NaN to nothing. -/
def sameFloat (x y : F64) : Bool := x.le y && y.le x

def sameSpeed : Option F64 → Option F64 → Bool
  | none, none => true
  | some x, some y => sameFloat x y
  | _, _ => false

/-- The derived equality of snapshots. -/
def PlayerSnapshot.same (a b : PlayerSnapshot) : Bool :=
  a.matchGuid = b.matchGuid && a.frame = b.frame && a.timeSeconds = b.timeSeconds &&
    a.name = b.name && a.primaryId = b.primaryId && a.teamNum = b.teamNum && a.score = b.score &&
    a.goals = b.goals && a.shots = b.shots && a.assists = b.assists && a.saves = b.saves &&
    a.touches = b.touches && a.demos = b.demos && sameSpeed a.speed b.speed &&
    a.boost = b.boost && a.bBoosting = b.bBoosting && a.bSupersonic = b.bSupersonic

theorem lt_irrefl_float (x : F64) : x.lt x = false := by
  cases x with
  | nan => rfl
  | infinite s => cases s <;> rfl
  | finite s m k h => simp [Datum.lt]

theorem sameFloat_self (x : F64) : sameFloat x x = true ↔ x ≠ .nan := by
  cases x with
  | nan => simp [sameFloat, Datum.le, Datum.isNan]
  | infinite s => simp [sameFloat, Datum.le, Datum.isNan, lt_irrefl_float]
  | finite s m k h => simp [sameFloat, Datum.le, Datum.isNan, lt_irrefl_float]

theorem same_self (s : PlayerSnapshot) : s.same s = true ↔ s.speed ≠ some .nan := by
  have hs : sameSpeed s.speed s.speed = true ↔ s.speed ≠ some .nan := by
    cases s.speed with
    | none => simp [sameSpeed]
    | some x => simp [sameSpeed, sameFloat_self]
  simp [PlayerSnapshot.same, hs]

/-! ## The tracker -/

structure PlayerTracker where
  playerName : String
  latest : Option PlayerSnapshot

def PlayerTracker.byName (playerName : String) : PlayerTracker := ⟨playerName,none⟩

def trackedPlayer (playerName : String) (update : UpdateStateData) : Option UpdateStatePlayer :=
  update.players.find? (fun player => player.name.any (fun name => sameName name playerName))

def updateFromEvent (t : PlayerTracker) (event : StatsEvent) :
    Option PlayerSnapshot × PlayerTracker :=
  match event with
  | .updateState update =>
    match trackedPlayer t.playerName update with
    | none => (none,t)
    | some player =>
      let snapshot := PlayerSnapshot.fromUpdate update player
      let changed := !t.latest.any (fun latest => latest.same snapshot)
      (if changed = true then some snapshot else none,{t with latest := some snapshot})
  | _ => (none,t)

/-- The results of successive calls, and the tracker after them. -/
def run (t : PlayerTracker) : List StatsEvent → List (Option PlayerSnapshot) × PlayerTracker
  | [] => ([],t)
  | event::events =>
    let r := updateFromEvent t event
    let rest := run r.2 events
    (r.1::rest.1,rest.2)

/-! ## What is tracked -/

/-- The snapshot of the tracked player, in a frame that has him. -/
def observed (playerName : String) : StatsEvent → Option PlayerSnapshot
  | .updateState update =>
    (trackedPlayer playerName update).map (PlayerSnapshot.fromUpdate update)
  | _ => none

/-- The snapshots that are not equal to the one before. -/
def changes : Option PlayerSnapshot → List PlayerSnapshot → List PlayerSnapshot
  | _, [] => []
  | last, s::snapshots =>
    if last.any (fun l => l.same s) = true then changes (some s) snapshots
    else s::changes (some s) snapshots

/-- One call, in terms of what it observes. -/
theorem updateFromEvent_eq (t : PlayerTracker) (event : StatsEvent) :
    updateFromEvent t event =
      match observed t.playerName event with
      | none => (none,t)
      | some s => (if t.latest.any (fun l => l.same s) = true then none else some s,
          {t with latest := some s}) := by
  cases event with
  | updateState update =>
    simp only [updateFromEvent, observed]
    cases trackedPlayer t.playerName update with
    | none => rfl
    | some player =>
      simp only [Option.map_some]
      cases t.latest.any (fun l => l.same (PlayerSnapshot.fromUpdate update player)) <;> rfl
  | _ => rfl

theorem updateFromEvent_name (t : PlayerTracker) (event : StatsEvent) :
    (updateFromEvent t event).2.playerName = t.playerName := by
  rw [updateFromEvent_eq]
  cases observed t.playerName event <;> rfl

theorem run_name (t : PlayerTracker) (events : List StatsEvent) :
    (run t events).2.playerName = t.playerName := by
  induction events generalizing t with
  | nil => rfl
  | cons event events ih => exact (ih _).trans (updateFromEvent_name t event)

theorem run_returned (t : PlayerTracker) (events : List StatsEvent) :
    (run t events).1.filterMap id =
      changes t.latest (events.filterMap (observed t.playerName)) := by
  induction events generalizing t with
  | nil => rfl
  | cons event events ih =>
    have hrest := ih (updateFromEvent t event).2
    rw [updateFromEvent_name, updateFromEvent_eq] at hrest
    rw [run, updateFromEvent_eq]
    cases ho : observed t.playerName event with
    | none =>
      rw [List.filterMap_cons_none ho]
      simpa [ho] using hrest
    | some s =>
      rw [List.filterMap_cons_some ho, changes]
      simp only [ho] at hrest
      by_cases hs : t.latest.any (fun l => l.same s) = true
      · simpa [hs] using hrest
      · simpa [hs] using hrest

theorem run_latest (t : PlayerTracker) (events : List StatsEvent) :
    (run t events).2.latest =
      ((events.filterMap (observed t.playerName)).getLast?).or t.latest := by
  induction events generalizing t with
  | nil => rfl
  | cons event events ih =>
    have hrest := ih (updateFromEvent t event).2
    rw [updateFromEvent_name, updateFromEvent_eq] at hrest
    rw [run, updateFromEvent_eq]
    cases ho : observed t.playerName event with
    | none =>
      rw [List.filterMap_cons_none ho]
      simpa [ho] using hrest
    | some s =>
      rw [List.filterMap_cons_some ho]
      simp only [ho] at hrest ⊢
      rw [hrest]
      cases hl : events.filterMap (observed t.playerName) with
      | nil => rfl
      | cons s' rest => simp [List.getLast?_eq_some_getLast]

/-- The second of two calls with one event. -/
theorem second_call (t : PlayerTracker) (event : StatsEvent) :
    (updateFromEvent (updateFromEvent t event).2 event).1 = none ↔
      ∀ s, observed t.playerName event = some s → s.speed ≠ some .nan := by
  rw [updateFromEvent_eq t event]
  cases ho : observed t.playerName event with
  | none => simp [updateFromEvent_eq, ho]
  | some s =>
    have hsame : s.same s = true ∨ s.same s = false := by cases s.same s <;> simp
    rcases hsame with h | h
    · simp [updateFromEvent_eq, ho, h, (same_self s).mp h]
    · have hn : s.speed = some .nan := by
        by_contra hc
        rw [(same_self s).mpr hc] at h
        cases h
      simp [updateFromEvent_eq, ho, h, hn]

theorem observed_speed (playerName : String) (event : StatsEvent) :
    (∀ s, observed playerName event = some s → s.speed ≠ some .nan) ↔
      ∀ update player, event = .updateState update →
        trackedPlayer playerName update = some player → effectiveSpeed player ≠ some .nan := by
  cases event with
  | updateState update =>
    simp only [observed, Option.map_eq_some_iff, StatsEvent.updateState.injEq]
    constructor
    · rintro h _ player rfl hp
      exact h _ ⟨player,hp,rfl⟩
    · rintro h _ ⟨player,hp,rfl⟩
      exact h update player rfl hp
  | _ => simp [observed]

/-- After any events: the snapshots returned are those that changed, the
latest is the last one, and what observes nothing changes nothing. An event
given twice returns nothing the second time unless its tracked player's speed
is NaN. -/
theorem tracker_reports_changes (playerName : String) (events : List StatsEvent)
    (event : StatsEvent) :
    (run (.byName playerName) events).1.filterMap id =
      changes none (events.filterMap (observed playerName)) ∧
    (run (.byName playerName) events).2.latest =
      (events.filterMap (observed playerName)).getLast? ∧
    (observed playerName event = none →
      updateFromEvent (run (.byName playerName) events).2 event =
        (none,(run (.byName playerName) events).2)) ∧
    ((updateFromEvent (updateFromEvent (run (.byName playerName) events).2 event).2 event).1 = none ↔
      ∀ update player, event = .updateState update →
        trackedPlayer playerName update = some player → effectiveSpeed player ≠ some .nan) := by
  have hname : (run (.byName playerName) events).2.playerName = playerName := run_name _ events
  refine ⟨run_returned _ events,?_,?_,?_⟩
  · rw [run_latest]
    exact Option.or_none
  · intro ho
    rw [updateFromEvent_eq, hname, ho]
  · rw [second_call, hname, observed_speed]

def nanFrame : Value :=
  .object [("Data",.object [("Players",.array
    [.object [("Name",.string "A"),("speed",.string "nan")]])]),("Event",.string "UpdateState")]

/-- The same frame twice, with the speed given as a text. -/
theorem nan_speed_returned_twice : ∃ event, parseStatsEventValue noText nanFrame = .ok event ∧
    (run (.byName "A") [event,event]).1.map Option.isSome = [true,true] :=
  ⟨_,rfl,by decide⟩

end RlStatsApi.PlayerTracking
