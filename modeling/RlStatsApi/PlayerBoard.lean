import RlStatsApi.EventPipe
import RlStatsApi.EventValues
import RlStatsApi.KeySort
import RlStatsApi.Throttle
import Mathlib.Data.Prod.Lex
import Mathlib.Data.String.Basic

/-!
# The player board

The board draws a frame for an update when the refresh time has passed since
it drew the last one, and nothing for the other events. A frame lists the
players by team and name.
-/

set_option autoImplicit false

namespace RlStatsApi.PlayerBoard
open RlStatsApi.TextLines RlStatsApi.DecimalText RlStatsApi.BinaryFloat RlStatsApi.JsonValue
open RlStatsApi.Error RlStatsApi.EventData RlStatsApi.EventParsing RlStatsApi.EventValues
open RlStatsApi.StreamClient RlStatsApi.RelayLoop RlStatsApi.RlEvents RlStatsApi.KeySort
open RlStatsApi.Throttle RlStatsApi.EventPipe

/-! ## Cells -/

/-- The piece after the last bar. -/
def shortPrimaryId (value : Text) : Text := (value.splitOn '|').getLastD value

def fmtOptI64 (value : Option I64) : Text := value.elim ['-'] (fun v => signedText v.val)

/-- A number without decimal places. -/
def wholeText : F64 → Text
  | .nan => ['N','a','N']
  | .infinite s => signText s++['i','n','f']
  | .finite s m k _ => signText s++Nat.toDigits 10 (roundHalfEven (m*2^k) (2^binary64.scale))

def fmtOptF64 (value : Option F64) : Text := value.elim ['-'] wholeText

def textOr (fallback : String) (value : Option String) : Text := (value.getD fallback).toList

def numberOr (fallback : ℤ) (value : Option I64) : ℤ := (value.map I64.val).getD fallback

def teamScore (data : UpdateStateData) (teamNum : ℤ) : Option I64 :=
  (data.game.teams.find? (fun team => decide (team.teamNum.map I64.val = some teamNum))).bind
    TeamState.score

structure Column where
  width : ℕ
  right : Bool

/-- Text that is too wide for its column keeps its width. -/
def Column.pad (c : Column) (cell : Text) : Text :=
  if c.right = true then cell.leftpad c.width ' ' else cell.rightpad c.width ' '

def columns : List Column :=
  [⟨4,false⟩,⟨18,false⟩,⟨7,false⟩,⟨6,true⟩,⟨5,true⟩,⟨5,true⟩,⟨5,true⟩,⟨6,true⟩,⟨6,true⟩,⟨6,true⟩,
    ⟨7,true⟩]

def line (cells : List Text) : Text :=
  [' '].intercalate (List.zipWith Column.pad columns cells)++['\n']

/-! ## A frame -/

def clearScreen : Text := "\x1b[2J\x1b[H".toList

def summary (data : UpdateStateData) : Text :=
  "Match=".toList++textOr "-" data.matchGuid++
    "  Frame=".toList++signedText (numberOr (-1) data.game.frame)++
    "  Time=".toList++signedText (numberOr (-1) data.game.timeSeconds)++
    "s  Score=".toList++signedText (numberOr (-1) (teamScore data 0))++
    ['-']++signedText (numberOr (-1) (teamScore data 1))++
    "  Players=".toList++Nat.toDigits 10 data.players.length++['\n']

def titles : List Text :=
  ["Team".toList,"Player".toList,"Primary".toList,"Score".toList,['G'],['A'],['S'],
    "Shots".toList,"Touch".toList,"Boost".toList,"Speed".toList]

def ruler : Text :=
  [' '].intercalate (columns.map (fun c => List.replicate c.width '-'))++['\n']

def playerCells (player : UpdateStatePlayer) : List Text :=
  [fmtOptI64 player.teamNum,textOr "-" player.name,
    player.primaryId.elim ['-'] (fun id => shortPrimaryId id.toList),fmtOptI64 player.score,
    fmtOptI64 player.goals,fmtOptI64 player.assists,fmtOptI64 player.saves,fmtOptI64 player.shots,
    fmtOptI64 player.touches,fmtOptI64 (effectiveBoost player),fmtOptF64 (effectiveSpeed player)]

def playerLine (player : UpdateStatePlayer) : Text := line (playerCells player)

/-- By team number, then by name. -/
def playerKey (player : UpdateStatePlayer) : ℤ ×ₗ String :=
  toLex (numberOr (-1) player.teamNum,player.name.getD "")

def heading (data : UpdateStateData) : Text := clearScreen++summary data++line titles++ruler

def renderState (data : UpdateStateData) : Text :=
  heading data++(sortByKey playerKey data.players).flatMap playerLine

/-! ### The lines of a frame -/

/-- The texts of a player stand on one line. -/
structure PlayerOneLine (player : UpdateStatePlayer) : Prop where
  name : ∀ t, player.name = some t → '\n' ∉ t.toList
  primaryId : ∀ t, player.primaryId = some t → '\n' ∉ t.toList

theorem fmtOptI64_feedless (value : Option I64) : '\n' ∉ fmtOptI64 value := by
  cases value with
  | none => decide
  | some v => exact signedText_feedless v.val

theorem wholeText_feedless (x : F64) : '\n' ∉ wholeText x := by
  have hs : ∀ b, '\n' ∉ signText b := by decide
  cases x with
  | nan => decide
  | infinite s =>
    rw [wholeText, List.mem_append, not_or]
    exact ⟨hs s,by decide⟩
  | finite s m k h =>
    rw [wholeText, List.mem_append, not_or]
    refine ⟨hs s,fun hm => ?_⟩
    have hd := List.all_eq_true.mp (toDigits_isDigit _) _ hm
    exact absurd hd (by decide)

theorem shortPrimaryId_feedless (value : Text) (h : '\n' ∉ value) :
    '\n' ∉ shortPrimaryId value := by
  have hne := List.splitOn_ne_nil '|' value
  rw [shortPrimaryId, List.getLastD_eq_getLast?, List.getLast?_eq_some_getLast hne,
    Option.getD_some]
  exact fun hm => h (mem_of_mem_splitOn '|' value _ (List.getLast_mem hne) _ hm)

theorem pad_feedless (c : Column) (cell : Text) (h : '\n' ∉ cell) : '\n' ∉ c.pad cell := by
  have hb : ∀ n, '\n' ∉ List.replicate n ' ' := fun n hm =>
    absurd (List.eq_of_mem_replicate hm) (by decide)
  unfold Column.pad
  split
  · rw [List.leftpad, List.mem_append, not_or]
    exact ⟨hb _,h⟩
  · rw [List.rightpad, List.mem_append, not_or]
    exact ⟨h,hb _⟩

theorem playerCells_feedless (player : UpdateStatePlayer) (h : PlayerOneLine player) :
    ∀ cell ∈ playerCells player, '\n' ∉ cell := by
  have hname : '\n' ∉ textOr "-" player.name := by
    rw [textOr]
    cases hn : player.name with
    | none => decide
    | some t => exact h.name t hn
  have hid : '\n' ∉ player.primaryId.elim ['-'] (fun id => shortPrimaryId id.toList) := by
    cases hp : player.primaryId with
    | none => decide
    | some t => exact shortPrimaryId_feedless _ (h.primaryId t hp)
  have hspeed : '\n' ∉ fmtOptF64 (effectiveSpeed player) := by
    cases effectiveSpeed player with
    | none => decide
    | some x => exact wholeText_feedless x
  simp only [playerCells, List.forall_mem_cons, fmtOptI64_feedless, hname, hid, hspeed,
    not_false_eq_true, true_and]
  exact fun cell hc => absurd hc List.not_mem_nil

def lineBody (cells : List Text) : Text :=
  [' '].intercalate (List.zipWith Column.pad columns cells)

theorem lineBody_feedless (cells : List Text) (h : ∀ cell ∈ cells, '\n' ∉ cell) :
    '\n' ∉ lineBody cells := by
  apply intercalate_feedless [' '] (by decide)
  intro t ht
  obtain ⟨i,hi,rfl⟩ := List.mem_iff_getElem.mp ht
  rw [List.getElem_zipWith]
  exact pad_feedless _ _ (h _ (List.getElem_mem _))

/-- Texts of one line each can be told from the lines they make. -/
theorem endedLines_injective (ts us : List Text) (ht : ∀ t ∈ ts, '\n' ∉ t)
    (hu : ∀ u ∈ us, '\n' ∉ u)
    (h : ts.flatMap (fun t => t++['\n']) = us.flatMap (fun u => u++['\n'])) : ts = us := by
  induction ts generalizing us with
  | nil =>
    cases us with
    | nil => rfl
    | cons u us => simp at h
  | cons t ts ih =>
    cases us with
    | nil => simp at h
    | cons u us =>
      rw [List.flatMap_cons, List.flatMap_cons, List.append_assoc, List.append_assoc] at h
      simp only [List.cons_append, List.nil_append] at h
      have hsplit := congrArg (List.splitOn '\n') h
      rw [List.splitOn_append_cons_self_of_not_mem (ht t List.mem_cons_self),
        List.splitOn_append_cons_self_of_not_mem (hu u List.mem_cons_self)] at hsplit
      obtain rfl := (List.cons.inj hsplit).1
      have hrest := (List.cons.inj (List.append_cancel_left h)).2
      rw [ih us (fun x hx => ht x (List.mem_cons_of_mem t hx))
        (fun x hx => hu x (List.mem_cons_of_mem t hx)) hrest]

theorem summary_players (data : UpdateStateData) (players : List UpdateStatePlayer)
    (h : players.length = data.players.length) : summary {data with players} = summary data := by
  obtain ⟨guid,listed,game,extra⟩ := data
  simp only at h
  unfold summary
  simp only [h]
  rfl

theorem heading_players (data : UpdateStateData) (players : List UpdateStatePlayer)
    (h : players.length = data.players.length) : heading {data with players} = heading data := by
  rw [heading, heading, summary_players data players h]

/-- A frame lists every player once, by team number and name, and players of
one team and name in the order of the update. -/
theorem renderState_rows (data : UpdateStateData) :
    ∃ players : List UpdateStatePlayer, players.Perm data.players ∧
      players.Pairwise (fun a b => playerKey a ≤ playerKey b) ∧
      (∀ k, players.filter (fun a => decide (playerKey a = k)) =
        data.players.filter (fun a => decide (playerKey a = k))) ∧
      renderState data = heading data++players.flatMap playerLine :=
  ⟨_,sortByKey_perm playerKey data.players,sortByKey_sorted playerKey data.players,
    sortByKey_stable playerKey data.players,rfl⟩

def playerTexts (players : List UpdateStatePlayer) : List Text :=
  (sortByKey playerKey players).map (fun p => lineBody (playerCells p))

theorem playerTexts_feedless (players : List UpdateStatePlayer)
    (h : ∀ p ∈ players, PlayerOneLine p) : ∀ t ∈ playerTexts players, '\n' ∉ t := by
  intro t ht
  obtain ⟨p,hm,ht⟩ := List.mem_map.mp ht
  rw [← ht]
  have hp := (sortByKey_perm playerKey players).subset hm
  exact lineBody_feedless _ (playerCells_feedless p (h p hp))

theorem renderState_texts (data : UpdateStateData) : renderState data =
    heading data++(playerTexts data.players).flatMap (fun t => t++['\n']) := by
  rw [playerTexts, List.flatMap_map]
  rfl

theorem playerTexts_order_iff (players : List UpdateStatePlayer) :
    (∀ others : List UpdateStatePlayer, others.Perm players →
        playerTexts others = playerTexts players) ↔
      ∀ a ∈ players, ∀ b ∈ players, playerKey a = playerKey b → playerLine a = playerLine b := by
  have hlook : ∀ a b : UpdateStatePlayer, playerLine a = playerLine b ↔
      lineBody (playerCells a) = lineBody (playerCells b) := fun a b => List.append_left_inj _
  simp only [hlook]
  exact sortByKey_order_iff playerKey (fun p => lineBody (playerCells p)) players

/-- A frame lists the players by team number and name. Where their texts stand
on one line, it does not depend on the order in which the update lists them
exactly when players of one team and name have equal lines. -/
theorem frame_order_iff (data : UpdateStateData) :
    (∃ players : List UpdateStatePlayer, players.Perm data.players ∧
      players.Pairwise (fun a b => playerKey a ≤ playerKey b) ∧
      (∀ k, players.filter (fun a => decide (playerKey a = k)) =
        data.players.filter (fun a => decide (playerKey a = k))) ∧
      renderState data = heading data++players.flatMap playerLine) ∧
    ((∀ p ∈ data.players, PlayerOneLine p) →
      ((∀ players : List UpdateStatePlayer, players.Perm data.players →
          renderState {data with players} = renderState data) ↔
        ∀ a ∈ data.players, ∀ b ∈ data.players, playerKey a = playerKey b →
          playerLine a = playerLine b)) := by
  refine ⟨renderState_rows data,fun h => ?_⟩
  rw [← playerTexts_order_iff]
  constructor
  · intro hr players hp
    have hsame := hr players hp
    rw [renderState_texts, renderState_texts, heading_players data players hp.length_eq] at hsame
    exact endedLines_injective _ _
      (playerTexts_feedless players fun p hm => h p (hp.subset hm))
      (playerTexts_feedless data.players h) (List.append_cancel_left hsame)
  · intro hs players hp
    have hsame := hs players hp
    rw [renderState_texts, renderState_texts, heading_players data players hp.length_eq]
    change _++(playerTexts players).flatMap _ = _
    rw [hsame]

def namedPlayer (name : String) : UpdateStatePlayer :=
  ⟨some name,none,none,none,none,none,none,none,none,none,none,none,none,none,none,none,none,none,
    none,none,none,none,none,none,[]⟩

def twoPlayers : UpdateStateData := ⟨none,[namedPlayer "b",namedPlayer "a"],.default,[]⟩

theorem two_players_order :
    (∃ players : List UpdateStatePlayer, players.Perm twoPlayers.players ∧
      players.Pairwise (fun a b => playerKey a ≤ playerKey b) ∧
      (∀ k, players.filter (fun a => decide (playerKey a = k)) =
        twoPlayers.players.filter (fun a => decide (playerKey a = k))) ∧
      renderState twoPlayers = heading twoPlayers++players.flatMap playerLine) ∧
    ((∀ players : List UpdateStatePlayer, players.Perm twoPlayers.players →
        renderState {twoPlayers with players} = renderState twoPlayers) ↔
      ∀ a ∈ twoPlayers.players, ∀ b ∈ twoPlayers.players, playerKey a = playerKey b →
        playerLine a = playerLine b) := by
  obtain ⟨hrows,hiff⟩ := frame_order_iff twoPlayers
  refine ⟨hrows,hiff fun p hp => ?_⟩
  simp only [twoPlayers, List.mem_cons, List.not_mem_nil, or_false] at hp
  rcases hp with rfl | rfl
  all_goals refine ⟨fun t ht => ?_,fun t ht => by cases ht⟩; cases ht; decide

/-! ## The loop -/

/-- What the clock says, in nanoseconds, when a turn looks at the time of the
last frame and when its own frame is drawn. -/
structure Reading where
  checked : ℤ
  rendered : ℤ

/-- A clock that never runs back, from the opening of the board on. -/
structure Advances (opened : ℤ) (clock : ℕ → Reading) : Prop where
  opening : opened ≤ (clock 0).checked
  turn : ∀ n, (clock n).checked ≤ (clock n).rendered
  next : ∀ n, (clock n).rendered ≤ (clock (n+1)).checked

def nanoseconds (millis : ℕ) : ℕ := millis*1000000

/-- The time since the last frame, or none if it lies ahead. -/
def elapsed (last now : ℤ) : ℕ := (now-last).toNat

inductive Stop where
  | dropped
  | reconnect (e : Failure)
  | output

/-- The frames drawn, and how drawing the next ones will go, all of them
well after those listed. -/
structure Board (σ : Type) where
  source : σ
  writes : List Bool
  lastRender : ℤ
  frames : List Text

def Board.opened {σ : Type} (s : σ) (writes : List Bool) (refreshMs : ℕ) (opened : ℤ) : Board σ :=
  ⟨s,writes,opened-nanoseconds refreshMs,[]⟩

section Loop

variable {σ : Type} (S : Source σ) (refreshMs : ℕ)

def boardTurn (reading : Reading) (b : Board σ) : Option Stop × Board σ :=
  match S.nextEvent b.source with
  | (.dropped,s) => (some .dropped,{b with source := s})
  | (.ready (.ok (some (.updateState state))),s) =>
    if nanoseconds refreshMs ≤ elapsed b.lastRender reading.checked then
      if b.writes.headD true = true then
        (none,⟨s,b.writes.tail,reading.rendered,b.frames++[renderState state]⟩)
      else (some .output,⟨s,b.writes.tail,b.lastRender,b.frames⟩)
    else (none,{b with source := s})
  | (.ready (.ok (some _)),s) => (none,{b with source := s})
  | (.ready (.ok none),s) | (.ready (.error _),s) =>
    match reconnectWithBackoff S s with
    | (.ok (),s) => (none,{b with source := s})
    | (.error e,s) => (some (.reconnect e),{b with source := s})

variable (clock : ℕ → Reading)

/-- The next `k` turns, of which the first is turn `n`. -/
def runBoard : ℕ → ℕ → Board σ → Option Stop × Board σ
  | _, 0, b => (none,b)
  | n, k+1, b =>
    match boardTurn S refreshMs (clock n) b with
    | (none,b) => runBoard (n+1) k b
    | (some stop,b) => (some stop,b)

def updateOf : StatsEvent → Option UpdateStateData
  | .updateState state => some state
  | _ => none

/-- What a turn draws from the source: an update, or nothing to draw a frame
for, or the end of the loop. -/
def nextUpdate (s : σ) : Option (Option UpdateStateData × σ) :=
  match S.nextEvent s with
  | (.dropped,_) => none
  | (.ready (.ok (some event)),s) => some (updateOf event,s)
  | (.ready (.ok none),s) | (.ready (.error _),s) =>
    match reconnectWithBackoff S s with
    | (.ok (),s) => some (none,s)
    | (.error _,_) => none

/-- The updates that the source yields, with what the clock says at their turns. -/
def updateOffers : ℕ → ℕ → σ → List (Offer UpdateStateData ℤ)
  | _, 0, _ => []
  | n, k+1, s =>
    match nextUpdate S s with
    | none => []
    | some (none,s) => updateOffers (n+1) k s
    | some (some state,s) =>
      ⟨state,(clock n).checked,(clock n).rendered⟩::updateOffers (n+1) k s

/-- The offers are the updates among the events drawn. -/
theorem updateOffers_items (n k : ℕ) (s : σ) :
    (updateOffers S clock n k s).map Offer.item = (drawn S k s).filterMap updateOf := by
  induction k generalizing n s with
  | zero => rfl
  | succ k ih =>
    rw [updateOffers, nextUpdate, drawn]
    rcases hs : S.nextEvent s with ⟨⟨⟨e⟩ | ⟨_ | event⟩⟩ | _,s⟩
    · simp only [reconnectWithBackoff]
      rcases hr : reconnectRlWithBackoff S 10 none s with ⟨_ | _,s'⟩
      · rfl
      · exact ih _ _
    · simp only [reconnectWithBackoff]
      rcases hr : reconnectRlWithBackoff S 10 none s with ⟨_ | _,s'⟩
      · rfl
      · exact ih _ _
    · cases hu : updateOf event with
      | none =>
        simp only [List.filterMap_cons, hu]
        exact ih _ _
      | some state =>
        simp only [List.filterMap_cons, hu, List.map_cons]
        rw [ih]
    · rfl

/-! ### The turns of the loop -/

variable {S} {refreshMs} {reading : Reading} {b : Board σ} {s : σ}

theorem boardTurn_ends (refreshMs : ℕ) (reading : Reading) (h : nextUpdate S b.source = none) :
    ∃ stop b', boardTurn S refreshMs reading b = (some stop,b') ∧ stop ≠ .output ∧
      b'.frames = b.frames := by
  rw [nextUpdate] at h
  rw [boardTurn]
  rcases hs : S.nextEvent b.source with ⟨⟨⟨e⟩ | ⟨_ | event⟩⟩ | _,s⟩
  · simp only [hs] at h ⊢
    rcases hr : reconnectWithBackoff S s with ⟨e | _,s'⟩
    · exact ⟨.reconnect e,_,rfl,nofun,rfl⟩
    · simp [hr] at h
  · simp only [hs] at h ⊢
    rcases hr : reconnectWithBackoff S s with ⟨e | _,s'⟩
    · exact ⟨.reconnect e,_,rfl,nofun,rfl⟩
    · simp [hr] at h
  · simp [hs] at h
  · exact ⟨.dropped,_,rfl,nofun,rfl⟩

theorem boardTurn_passes (h : nextUpdate S b.source = some (none,s)) :
    boardTurn S refreshMs reading b = (none,{b with source := s}) := by
  rw [nextUpdate] at h
  rw [boardTurn]
  rcases hs : S.nextEvent b.source with ⟨⟨⟨e⟩ | ⟨_ | event⟩⟩ | _,s₁⟩
  · simp only [hs] at h ⊢
    rcases hr : reconnectWithBackoff S s₁ with ⟨e | _,s'⟩
    · simp [hr] at h
    · simp only [hr, Option.some.injEq, Prod.mk.injEq, true_and] at h
      rw [h]
  · simp only [hs] at h ⊢
    rcases hr : reconnectWithBackoff S s₁ with ⟨e | _,s'⟩
    · simp [hr] at h
    · simp only [hr, Option.some.injEq, Prod.mk.injEq, true_and] at h
      rw [h]
  · simp only [hs, Option.some.injEq, Prod.mk.injEq] at h
    obtain ⟨hu,rfl⟩ := h
    cases event with
    | updateState state => cases hu
    | _ => rfl
  · simp [hs] at h

theorem boardTurn_update {state : UpdateStateData}
    (h : nextUpdate S b.source = some (some state,s)) :
    boardTurn S refreshMs reading b =
      if nanoseconds refreshMs ≤ elapsed b.lastRender reading.checked then
        if b.writes.headD true = true then
          (none,⟨s,b.writes.tail,reading.rendered,b.frames++[renderState state]⟩)
        else (some .output,⟨s,b.writes.tail,b.lastRender,b.frames⟩)
      else (none,{b with source := s}) := by
  rw [nextUpdate] at h
  rcases hs : S.nextEvent b.source with ⟨⟨⟨e⟩ | ⟨_ | event⟩⟩ | _,s₁⟩
  · simp only [hs] at h
    rcases hr : reconnectWithBackoff S s₁ with ⟨e | _,s'⟩ <;> simp [hr] at h
  · simp only [hs] at h
    rcases hr : reconnectWithBackoff S s₁ with ⟨e | _,s'⟩ <;> simp [hr] at h
  · simp only [hs, Option.some.injEq, Prod.mk.injEq] at h
    obtain ⟨hu,rfl⟩ := h
    cases event with
    | updateState state' =>
      cases hu
      rw [boardTurn, hs]
    | _ => cases hu
  · simp [hs] at h

variable {clock} {opened : ℤ}

theorem elapsed_iff (gap : ℕ) (last now : ℤ) (h : last ≤ now) :
    gap ≤ elapsed last now ↔ last+gap ≤ now := by
  unfold elapsed
  omega

theorem Advances.later (h : Advances opened clock) (n j : ℕ) :
    (clock n).rendered ≤ (clock (n+1+j)).checked := by
  induction j with
  | zero => exact h.next n
  | succ j ih => exact ih.trans ((h.turn (n+1+j)).trans (h.next (n+1+j)))

theorem Advances.opened_le (h : Advances opened clock) (n : ℕ) : opened ≤ (clock n).checked := by
  cases n with
  | zero => exact h.opening
  | succ n =>
    have hlater := h.later 0 n
    rw [Nat.zero_add, Nat.add_comm] at hlater
    exact h.opening.trans ((h.turn 0).trans hlater)

/-- An offer is made at the readings of its turn, which is still to come. -/
theorem updateOffers_turn (n k : ℕ) (s : σ) : ∀ o ∈ updateOffers S clock n k s,
    ∃ j, o.made = (clock (n+j)).checked ∧ o.ended = (clock (n+j)).rendered := by
  induction k generalizing n s with
  | zero => exact fun o ho => absurd ho List.not_mem_nil
  | succ k ih =>
    have hrec : ∀ s', ∀ o ∈ updateOffers S clock (n+1) k s',
        ∃ j, o.made = (clock (n+j)).checked ∧ o.ended = (clock (n+j)).rendered := by
      intro s' o ho
      obtain ⟨j,hj⟩ := ih (n+1) s' o ho
      exact ⟨1+j,by rwa [← Nat.add_assoc]⟩
    rw [updateOffers]
    rcases nextUpdate S s with _ | ⟨_ | state,s'⟩
    · exact fun o ho => absurd ho List.not_mem_nil
    · exact hrec s'
    · exact List.forall_mem_cons.mpr ⟨⟨0,rfl,rfl⟩,hrec s'⟩

theorem updateOffers_inOrder (hc : Advances opened clock) (n k : ℕ) (s : σ) :
    InOrder (updateOffers S clock n k s) := by
  induction k generalizing n s with
  | zero => exact InOrder.nil
  | succ k ih =>
    rw [updateOffers]
    rcases nextUpdate S s with _ | ⟨_ | state,s'⟩
    · exact InOrder.nil
    · exact ih (n+1) s'
    · refine InOrder.cons (hc.turn n) (fun o ho => ?_) (ih (n+1) s')
      obtain ⟨j,hj,_⟩ := updateOffers_turn (n+1) k s' o ho
      rw [hj]
      exact hc.later n j

/-- The board throttles the updates, up to a frame that cannot be drawn. -/
theorem runBoard_frames (refreshMs : ℕ) (hc : Advances opened clock) (n k : ℕ) (b : Board σ)
    (hb : b.lastRender ≤ (clock n).checked) : ∃ shown : List (Offer UpdateStateData ℤ),
      shown <+: throttle ↑(nanoseconds refreshMs) b.lastRender (updateOffers S clock n k b.source) ∧
      (runBoard S refreshMs clock n k b).2.frames =
        b.frames++shown.map (fun o => renderState o.item) ∧
      ((runBoard S refreshMs clock n k b).1 ≠ some .output → shown =
        throttle ↑(nanoseconds refreshMs) b.lastRender (updateOffers S clock n k b.source)) := by
  induction k generalizing n b with
  | zero => exact ⟨[],List.nil_prefix,by simp [runBoard],fun _ => rfl⟩
  | succ k ih =>
    have hnext : (clock n).checked ≤ (clock (n+1)).checked := (hc.turn n).trans (hc.next n)
    rw [runBoard, updateOffers]
    rcases hu : nextUpdate S b.source with _ | ⟨_ | state,s'⟩
    · obtain ⟨stop,b',ht,_,hf⟩ := boardTurn_ends refreshMs (clock n) hu
      rw [ht]
      exact ⟨[],List.nil_prefix,by simp [hf],fun _ => rfl⟩
    · rw [boardTurn_passes hu]
      exact ih (n+1) {b with source := s'} (hb.trans hnext)
    · rw [boardTurn_update hu]
      by_cases hg : nanoseconds refreshMs ≤ elapsed b.lastRender (clock n).checked
      · rw [if_pos hg]
        have htaken : b.lastRender+(nanoseconds refreshMs : ℤ) ≤ (clock n).checked :=
          (elapsed_iff _ _ _ hb).mp hg
        simp only
        rw [throttle_taken htaken]
        by_cases hw : b.writes.headD true = true
        · rw [if_pos hw]
          obtain ⟨shown,hp,hf,hs⟩ := ih (n+1)
            ⟨s',b.writes.tail,(clock n).rendered,b.frames++[renderState state]⟩ (hc.next n)
          refine ⟨⟨state,(clock n).checked,(clock n).rendered⟩::shown,?_,?_,?_⟩
          · exact List.cons_prefix_cons.mpr ⟨rfl,hp⟩
          · simp only
            rw [hf]
            simp
          · intro hstop
            rw [hs hstop]
        · rw [if_neg hw]
          exact ⟨[],List.nil_prefix,by simp,fun hstop => absurd rfl hstop⟩
      · rw [if_neg hg]
        have hleft : ¬ b.lastRender+(nanoseconds refreshMs : ℤ) ≤ (clock n).checked :=
          fun hle => hg ((elapsed_iff _ _ _ hb).mpr hle)
        simp only
        rw [throttle_left hleft]
        exact ih (n+1) {b with source := s'} (hb.trans hnext)

/-- The frames are those of updates drawn, in their order. From one frame to
the next the refresh time passes. While the output lasts, an update without a
frame comes within the refresh time after one with a frame, and no other
choice of updates with that distance is longer. -/
theorem boards_paced (S : Source σ) (refreshMs : ℕ) (hc : Advances opened clock)
    (s : σ) (writes : List Bool) (k : ℕ) : ∃ shown : List (Offer UpdateStateData ℤ),
      (runBoard S refreshMs clock 0 k (.opened s writes refreshMs opened)).2.frames =
        shown.map (fun o => renderState o.item) ∧
      (updateOffers S clock 0 k s).map Offer.item = (drawn S k s).filterMap updateOf ∧
      shown.Sublist (updateOffers S clock 0 k s) ∧
      Spaced ↑(nanoseconds refreshMs) shown ∧
      ((runBoard S refreshMs clock 0 k (.opened s writes refreshMs opened)).1 ≠ some .output →
        (∀ o ∈ updateOffers S clock 0 k s,
          o ∈ shown ∨ ∃ f ∈ shown, Follows ↑(nanoseconds refreshMs) f o) ∧
        ∀ other, other.Sublist (updateOffers S clock 0 k s) →
          Spaced ↑(nanoseconds refreshMs) other → other.length ≤ shown.length) := by
  have horder : InOrder (updateOffers S clock 0 k s) := updateOffers_inOrder hc 0 k s
  have hstart : ∀ o ∈ updateOffers S clock 0 k s,
      opened-(nanoseconds refreshMs : ℤ)+nanoseconds refreshMs ≤ o.made := by
    intro o ho
    obtain ⟨j,hj,_⟩ := updateOffers_turn 0 k s o ho
    rw [hj, Int.sub_add_cancel]
    exact hc.opened_le _
  have hlast : opened-(nanoseconds refreshMs : ℤ) ≤ (clock 0).checked :=
    (Int.sub_le_self _ (Int.natCast_nonneg _)).trans hc.opening
  obtain ⟨shown,hp,hf,hs⟩ := runBoard_frames refreshMs hc 0 k
    (Board.opened s writes refreshMs opened) hlast
  refine ⟨shown,by rw [hf]; rfl,updateOffers_items S clock 0 k s,
    hp.sublist.trans (throttle_sublist _ _ _),
    (throttle_spaced (Int.natCast_nonneg _) horder).sublist hp.sublist,fun hstop => ?_⟩
  rw [hs hstop]
  constructor
  · intro o ho
    rcases throttle_covers (opened-(nanoseconds refreshMs : ℤ)) horder o ho with
      hin | hearly | hfollows
    · exact Or.inl hin
    · exact absurd (hstart o ho) (not_le.mpr hearly)
    · exact Or.inr hfollows
  · intro other hsub hspaced
    exact throttle_most horder _ le_rfl other hsub hspaced fun a ha => hstart a (hsub.subset ha)

end Loop

def listed : Source (List StatsEvent) where
  nextEvent
    | [] => (.dropped,[])
    | event::events => (.ready (.ok (some event)),events)
  reconnect events := (.error .socketIo,events)

def emptyUpdate : UpdateStateData := ⟨none,[],.default,[]⟩

def steadyClock (n : ℕ) : Reading := ⟨n,n⟩

def twoUpdates : List StatsEvent := [.updateState emptyUpdate,.updateState emptyUpdate]

theorem two_updates_paced : ∃ shown : List (Offer UpdateStateData ℤ),
    (runBoard listed 200 steadyClock 0 3 (.opened twoUpdates [] 200 0)).2.frames =
      shown.map (fun o => renderState o.item) ∧
    (updateOffers listed steadyClock 0 3 twoUpdates).map Offer.item =
      (drawn listed 3 twoUpdates).filterMap updateOf ∧
    shown.Sublist (updateOffers listed steadyClock 0 3 twoUpdates) ∧
    Spaced ↑(nanoseconds 200) shown ∧
    ((runBoard listed 200 steadyClock 0 3 (.opened twoUpdates [] 200 0)).1 ≠ some .output →
      (∀ o ∈ updateOffers listed steadyClock 0 3 twoUpdates,
        o ∈ shown ∨ ∃ f ∈ shown, Follows ↑(nanoseconds 200) f o) ∧
      ∀ other, other.Sublist (updateOffers listed steadyClock 0 3 twoUpdates) →
        Spaced ↑(nanoseconds 200) other → other.length ≤ shown.length) :=
  boards_paced listed 200
    ⟨le_rfl,fun _ => le_rfl,fun n => Int.ofNat_le.mpr (Nat.le_succ n)⟩ twoUpdates [] 3

end RlStatsApi.PlayerBoard
