import RlStatsApi.RlEvents

/-!
# Event kinds in lists of names

The command line and the bindings read the same names from lists that are
cut at commas, but not the name `all`: on the command line it drops the kinds
before it, in the bindings it is passed over. A filter without kinds accepts
every event, so the two differ, and the order matters, as soon as `all`
stands beside a kind.
-/

set_option autoImplicit false

namespace RlStatsApi.KindTokens
open RlStatsApi.TextLines RlStatsApi.JsonValue RlStatsApi.EventParsing RlStatsApi.EventFilters
open RlStatsApi.RlEvents

/-! ## Names -/

def eventKindFromToken : String → Option EventKind
  | "update_state" | "update" | "state" | "tick" => some .updateState
  | "ball_hit" | "ballhit" => some .ballHit
  | "boost_pickup" | "boost" => some .boostPickup
  | "clock_updated_seconds" | "clock" => some .clockUpdatedSeconds
  | "countdown_begin" | "countdown" => some .countdownBegin
  | "crossbar_hit" | "crossbar" => some .crossbarHit
  | "goal_replay_end" => some .goalReplayEnd
  | "goal_replay_start" => some .goalReplayStart
  | "goal_replay_will_end" => some .goalReplayWillEnd
  | "goal_scored" | "goal" => some .goalScored
  | "match_created" => some .matchCreated
  | "match_initialized" => some .matchInitialized
  | "match_destroyed" => some .matchDestroyed
  | "match_ended" | "ended" => some .matchEnded
  | "match_paused" | "paused" | "pause" => some .matchPaused
  | "match_unpaused" | "unpaused" | "unpause" => some .matchUnpaused
  | "player_joined" | "joined" => some .playerJoined
  | "player_left" | "left" => some .playerLeft
  | "podium_start" => some .podiumStart
  | "replay_created" => some .replayCreated
  | "round_started" | "round" => some .roundStarted
  | "statfeed_event" | "statfeed" => some .statfeedEvent
  | "unknown" => some .unknown
  | _ => none

def parseEventKind : String → Option EventKind
  | "update_state" | "update" | "state" | "tick" => some .updateState
  | "ball_hit" | "ballhit" => some .ballHit
  | "boost_pickup" | "boost" => some .boostPickup
  | "clock_updated_seconds" | "clock" => some .clockUpdatedSeconds
  | "countdown_begin" | "countdown" => some .countdownBegin
  | "crossbar_hit" | "crossbar" => some .crossbarHit
  | "goal_replay_end" => some .goalReplayEnd
  | "goal_replay_start" => some .goalReplayStart
  | "goal_replay_will_end" => some .goalReplayWillEnd
  | "goal_scored" | "goal" => some .goalScored
  | "match_created" => some .matchCreated
  | "match_initialized" => some .matchInitialized
  | "match_destroyed" => some .matchDestroyed
  | "match_ended" | "ended" => some .matchEnded
  | "match_paused" | "paused" | "pause" => some .matchPaused
  | "match_unpaused" | "unpaused" | "unpause" => some .matchUnpaused
  | "player_joined" | "joined" => some .playerJoined
  | "player_left" | "left" => some .playerLeft
  | "podium_start" => some .podiumStart
  | "replay_created" => some .replayCreated
  | "round_started" | "round" => some .roundStarted
  | "statfeed_event" | "statfeed" => some .statfeedEvent
  | "unknown" => some .unknown
  | _ => none

/-- The two copies of the table are the same. -/
theorem parseEventKind_eq : parseEventKind = eventKindFromToken := rfl

def normalized (part : Text) : String := String.ofList ((trim part).map Char.toLower)

/-- One part of a list: `onAll` is what `all` does to the kinds so far. -/
def readPart (table : String → Option EventKind) (onAll : List EventKind → List EventKind)
    (complaint : String → String) (kinds : List EventKind) (part : Text) :
    Except String (List EventKind) :=
  if normalized part = "" then .ok kinds
  else if normalized part = "all" then .ok (onAll kinds)
  else
    match table (normalized part) with
    | some kind => .ok (kinds++[kind])
    | none => .error (complaint (normalized part))

def parseEventFilterValue (value : String) (filters : List EventKind) :
    Except String (List EventKind) :=
  (value.toList.splitOn ',').foldlM (readPart eventKindFromToken (fun _ => []) (fun token =>
    "unknown event filter '"++token++"'. Use --list-events to see valid values.")) filters

/-- The `--event` arguments of a command line, one after the other. -/
def eventArguments (values : List String) : Except String (List EventKind) :=
  values.foldlM (fun filters value => parseEventFilterValue value filters) []

def eventTypeKinds (tokens : List String) : Except String (List EventKind) :=
  tokens.foldlM (fun kinds token => (token.toList.splitOn ',').foldlM
    (readPart parseEventKind id (fun token => "unknown event type '"++token++"'")) kinds) []

def buildFilter (eventTypes : Option (List String)) (playerName playerPrimaryId : Option String)
    (teamNum : Option I64) (matchGuid : Option String) : Except String EventFilter :=
  match (eventTypes.elim (.ok []) eventTypeKinds : Except String (List EventKind)) with
  | .error e => .error e
  | .ok kinds =>
    let filter := EventFilter.new
    let filter := if kinds = [] then filter else filter.includeKinds kinds
    let filter := playerName.elim filter filter.withPlayerName
    let filter := playerPrimaryId.elim filter filter.withPlayerPrimaryId
    let filter := teamNum.elim filter filter.withTeamNum
    .ok (matchGuid.elim filter filter.withMatchGuid)

/-! ## Parts -/

def parts (values : List String) : List Text := values.flatMap (fun v => v.toList.splitOn ',')

inductive Token where
  | blank
  | all
  | kind (k : EventKind)
  | unknown
  deriving DecidableEq

def token (part : Text) : Token :=
  if normalized part = "" then .blank
  else if normalized part = "all" then .all
  else
    match eventKindFromToken (normalized part) with
    | some k => .kind k
    | none => .unknown

def tokenKind : Token → Option EventKind
  | .kind k => some k
  | _ => none

/-- The kinds after one part that is not unknown. -/
def advance (onAll : List EventKind → List EventKind) (kinds : List EventKind) (part : Text) :
    List EventKind :=
  match token part with
  | .all => onAll kinds
  | t => kinds++(tokenKind t).toList

section Reading

variable (onAll : List EventKind → List EventKind) (complaint : String → String)

theorem readPart_eq (kinds : List EventKind) (part : Text) :
    readPart eventKindFromToken onAll complaint kinds part =
      if token part = .unknown then .error (complaint (normalized part))
      else .ok (advance onAll kinds part) := by
  by_cases hb : normalized part = ""
  · simp [readPart, advance, token, hb, tokenKind]
  by_cases ha : normalized part = "all"
  · simp [readPart, advance, token, ha]
  cases hk : eventKindFromToken (normalized part) with
  | some k => simp [readPart, advance, token, hb, ha, hk, tokenKind]
  | none => simp [readPart, token, hb, ha, hk]

theorem foldlM_readPart (ps : List Text) (kinds : List EventKind) :
    (∃ p ∈ ps, token p = .unknown) ∧
      (∃ e, ps.foldlM (readPart eventKindFromToken onAll complaint) kinds = .error e) ∨
    (∀ p ∈ ps, token p ≠ .unknown) ∧
      ps.foldlM (readPart eventKindFromToken onAll complaint) kinds =
        .ok (ps.foldl (advance onAll) kinds) := by
  induction ps generalizing kinds with
  | nil => exact .inr ⟨by simp,rfl⟩
  | cons p ps ih =>
    rw [List.foldlM_cons, readPart_eq]
    by_cases hp : token p = .unknown
    · rw [if_pos hp]
      exact .inl ⟨⟨p,by simp,hp⟩,_,rfl⟩
    · rw [if_neg hp]
      rcases ih (advance onAll kinds p) with ⟨⟨q,hq,hu⟩,he⟩ | ⟨hk,he⟩
      · exact .inl ⟨⟨q,by simp [hq],hu⟩,he⟩
      · refine .inr ⟨?_,he⟩
        intro q hq
        rcases List.mem_cons.mp hq with rfl | hq
        · exact hp
        · exact hk q hq

theorem foldlM_parts (values : List String) (kinds : List EventKind) :
    values.foldlM (fun kinds v => (v.toList.splitOn ',').foldlM
      (readPart eventKindFromToken onAll complaint) kinds) kinds =
    (parts values).foldlM (readPart eventKindFromToken onAll complaint) kinds := by
  induction values generalizing kinds with
  | nil => rfl
  | cons v values ih =>
    have hp : parts (v::values) = v.toList.splitOn ','++parts values := List.flatMap_cons
    rw [List.foldlM_cons, hp, List.foldlM_append]
    congr 1
    funext kinds
    exact ih kinds

end Reading

/-! ## Filters -/

def accepts (kinds : List EventKind) (event : StatsEvent) : Bool :=
  kinds.isEmpty || kinds.contains (.ofEvent event)

def argumentsFilter (values : List String) : Except String EventFilter :=
  (eventArguments values).map (fun kinds => buildEventFilter {eventKinds := kinds})

def typesFilter (values : List String) : Except String EventFilter :=
  buildFilter (some values) none none none none

/-- Both fail, or both accept the same events. -/
def SameKinds : Except String EventFilter → Except String EventFilter → Prop
  | .error _, .error _ => True
  | .ok f, .ok g => ∀ event, f.matches event = g.matches event
  | _, _ => False

theorem matches_kinds (kinds : List EventKind) (event : StatsEvent) :
    (if kinds = [] then EventFilter.new else EventFilter.new.includeKinds kinds).matches event =
      accepts kinds event := by
  cases kinds with
  | nil => simp [EventFilter.matches, EventFilter.new, accepts]
  | cons k kinds => simp [EventFilter.matches, EventFilter.new, EventFilter.includeKinds, accepts]

/-- The result of reading some parts: a failure at an unknown name, or else a
filter for the kinds. -/
def ReadsAs (result : Except String EventFilter) (ps : List Text) (kinds : List EventKind) : Prop :=
  (∃ p ∈ ps, token p = .unknown) ∧ (∃ e, result = .error e) ∨
  (∀ p ∈ ps, token p ≠ .unknown) ∧
    ∃ f, result = .ok f ∧ ∀ event, f.matches event = accepts kinds event

def cleared (ps : List Text) : List EventKind := ps.foldl (advance (fun _ => [])) []

def skipped (ps : List Text) : List EventKind := ps.foldl (advance id) []

theorem argumentsFilter_reads (values : List String) :
    ReadsAs (argumentsFilter values) (parts values) (cleared (parts values)) := by
  have hp : eventArguments values = (parts values).foldlM (readPart eventKindFromToken _ _) [] :=
    foldlM_parts _ _ values []
  rw [argumentsFilter, hp]
  rcases foldlM_readPart (fun _ => []) _ (parts values) [] with ⟨hu,e,he⟩ | ⟨hk,he⟩
  · rw [he]
    exact .inl ⟨hu,e,rfl⟩
  · rw [he]
    exact .inr ⟨hk,_,rfl,matches_kinds _⟩

theorem typesFilter_reads (values : List String) :
    ReadsAs (typesFilter values) (parts values) (skipped (parts values)) := by
  have hp : eventTypeKinds values = (parts values).foldlM (readPart eventKindFromToken id
      (fun token => "unknown event type '"++token++"'")) [] := by
    rw [eventTypeKinds, parseEventKind_eq]
    exact foldlM_parts _ _ values []
  simp only [typesFilter, buildFilter, Option.elim, hp]
  rcases foldlM_readPart id _ (parts values) [] with ⟨hu,e,he⟩ | ⟨hk,he⟩
  · rw [he]
    exact .inl ⟨hu,e,rfl⟩
  · rw [he]
    exact .inr ⟨hk,_,rfl,matches_kinds _⟩

theorem sameKinds_iff {x y : Except String EventFilter} {ps qs : List Text}
    {ks ls : List EventKind} (hx : ReadsAs x ps ks) (hy : ReadsAs y qs ls)
    (hu : (∃ p ∈ ps, token p = .unknown) ↔ ∃ q ∈ qs, token q = .unknown) :
    SameKinds x y ↔
      (∃ p ∈ ps, token p = .unknown) ∨ ∀ event, accepts ks event = accepts ls event := by
  rcases hx with ⟨hp,e,rfl⟩ | ⟨hp,f,rfl,hf⟩
  · rcases hy with ⟨_,e',rfl⟩ | ⟨hq,_⟩
    · exact iff_of_true trivial (.inl hp)
    · obtain ⟨q,hm,ht⟩ := hu.mp hp
      exact absurd ht (hq q hm)
  · have hn : ¬ ∃ p ∈ ps, token p = .unknown := fun ⟨p,hm,ht⟩ => hp p hm ht
    rcases hy with ⟨hq,_⟩ | ⟨_,g,rfl,hg⟩
    · exact absurd (hu.mpr hq) hn
    · simp only [SameKinds, hf, hg, hn, false_or]

theorem accepts_congr (ks ls : List EventKind) (h : ∀ k, k ∈ ks ↔ k ∈ ls) (event : StatsEvent) :
    accepts ks event = accepts ls event := by
  have hempty : ks = [] ↔ ls = [] := by
    rw [List.eq_nil_iff_forall_not_mem, List.eq_nil_iff_forall_not_mem]
    exact forall_congr' fun k => not_congr (h k)
  rw [Bool.eq_iff_iff]
  simp [accepts, hempty, h]

/-! ## The order of parts -/

theorem skipped_eq (ps : List Text) (kinds : List EventKind) :
    ps.foldl (advance id) kinds = kinds++ps.filterMap (fun p => tokenKind (token p)) := by
  induction ps generalizing kinds with
  | nil => simp
  | cons p ps ih =>
    rw [List.foldl_cons, ih, advance]
    cases ht : token p <;> simp [tokenKind, ht]

theorem cleared_no_all (ps : List Text) (h : ∀ p ∈ ps, token p ≠ .all) (kinds : List EventKind) :
    ps.foldl (advance (fun _ => [])) kinds = ps.foldl (advance id) kinds := by
  induction ps generalizing kinds with
  | nil => rfl
  | cons p ps ih =>
    have hp : advance (fun _ => []) kinds p = advance id kinds p := by
      have := h p (by simp)
      unfold advance
      cases ht : token p <;> simp_all
    rw [List.foldl_cons, List.foldl_cons, hp, ih (fun q hq => h q (by simp [hq]))]

theorem cleared_no_kind (ps : List Text) (h : ∀ p ∈ ps, ∀ k, token p ≠ .kind k) :
    cleared ps = [] := by
  induction ps with
  | nil => rfl
  | cons p ps ih =>
    have hp : advance (fun _ => []) [] p = [] := by
      have := h p (by simp)
      unfold advance
      cases ht : token p <;> simp_all [tokenKind]
    rw [cleared, List.foldl_cons, hp]
    exact ih (fun q hq => h q (by simp [hq]))

theorem skipped_no_kind (ps : List Text) (h : ∀ p ∈ ps, ∀ k, token p ≠ .kind k) :
    skipped ps = [] := by
  rw [skipped, skipped_eq, List.nil_append, List.filterMap_eq_nil_iff]
  intro p hp
  cases ht : token p with
  | kind k => exact absurd ht (h p hp k)
  | _ => rfl

theorem mem_skipped_perm (ps qs : List Text) (h : ps.Perm qs) (k : EventKind) :
    k ∈ skipped ps ↔ k ∈ skipped qs := by
  rw [skipped, skipped, skipped_eq, skipped_eq]
  exact (h.filterMap _).mem_iff

/-- A list of values with any given parts. -/
theorem parts_ofList (ps : List Text) (h : ∀ p ∈ ps, ',' ∉ p) :
    parts (ps.map String.ofList) = ps := by
  induction ps with
  | nil => rfl
  | cons p ps ih =>
    have hp : p.splitOn ',' = [p] := List.splitOn_eq_singleton (h p (by simp))
    have hr := ih (fun q hq => h q (by simp [hq]))
    rw [parts] at hr ⊢
    rw [List.map_cons, List.flatMap_cons, hr, String.toList_ofList, hp]
    rfl

theorem no_comma (values : List String) : ∀ p ∈ parts values, ',' ∉ p := by
  intro p hp
  obtain ⟨v,_,hv⟩ := List.mem_flatMap.mp hp
  exact not_mem_splitOn ',' v.toList p hv

/-- Some event is not of a given kind. -/
theorem other_kind (k : EventKind) : ∃ event, EventKind.ofEvent event ≠ k := by
  by_cases h : k = .unknown
  · exact ⟨.matchPaused ⟨none,[]⟩,by simp [EventKind.ofEvent, h]⟩
  · exact ⟨.unknown ⟨"",.null⟩,fun he => h he.symm⟩

/-- Both front ends accept the same kinds from a list, and from any list of
its parts in another order as well. -/
def FrontEndsAgree (values : List String) : Prop :=
  SameKinds (argumentsFilter values) (typesFilter values) ∧
  ∀ values', (parts values').Perm (parts values) →
    SameKinds (argumentsFilter values') (argumentsFilter values) ∧
    SameKinds (typesFilter values') (typesFilter values)

/-- `all` before and after the same name: everything, or this kind alone. -/
theorem reordered_differs (values : List String) (p a : Text) (k : EventKind)
    (hp : p ∈ parts values) (ha : a ∈ parts values) (hk : token p = .kind k)
    (hall : token a = .all) (hu : ∀ q ∈ parts values, token q ≠ .unknown) :
    ¬ FrontEndsAgree values := by
  rintro ⟨_,hperm⟩
  have hne : a ≠ p := by
    rintro rfl
    rw [hk] at hall
    cases hall
  let others := ((parts values).erase p).erase a
  have hsplit : (parts values).Perm (p::a::others) :=
    (List.perm_cons_erase hp).trans ((List.perm_cons_erase ((List.mem_erase_of_ne hne).mpr ha)).cons p)
  have hcomm : (others++[p,a]).Perm ([p,a]++others) := List.perm_append_comm
  have h1 : (others++[p,a]).Perm (parts values) := hcomm.trans hsplit.symm
  have h2 : (others++[a,p]).Perm (parts values) :=
    ((List.Perm.swap p a []).append_left others).trans h1
  have hsame : ∀ ps : List Text, ps.Perm (parts values) →
      ∀ event, accepts (cleared ps) event = accepts (cleared (parts values)) event := by
    intro ps h
    have hparts := parts_ofList ps (fun q hq => no_comma values q (h.subset hq))
    have hs := (hperm (ps.map String.ofList) (hparts.symm ▸ h)).1
    have hr := argumentsFilter_reads (ps.map String.ofList)
    rw [hparts] at hr
    have hmem : (∃ q ∈ ps, token q = .unknown) ↔ ∃ q ∈ parts values, token q = .unknown := by
      simp only [h.mem_iff]
    rw [sameKinds_iff hr (argumentsFilter_reads values) hmem] at hs
    refine hs.resolve_left ?_
    rintro ⟨q,hq,ht⟩
    exact hu q (h.subset hq) ht
  obtain ⟨event,he⟩ := other_kind k
  have heq := (hsame _ h1 event).trans (hsame _ h2 event).symm
  simp [cleared, advance, hk, hall, tokenKind, accepts, he] at heq

/-- The front ends agree on a list and its reorderings if and only if some
name is unknown, or `all` does not stand beside a kind. -/
theorem frontEndsAgree_iff (values : List String) :
    FrontEndsAgree values ↔ (∃ p ∈ parts values, token p = .unknown) ∨
      (∀ p ∈ parts values, token p ≠ .all) ∨ ∀ p ∈ parts values, ∀ k, token p ≠ .kind k := by
  constructor
  · intro h
    by_contra hn
    simp only [not_or, not_exists, not_and, not_forall, ne_eq, not_not] at hn
    obtain ⟨hu,⟨a,ha,hall⟩,p,hp,k,hk⟩ := hn
    exact reordered_differs values p a k hp ha hk hall hu h
  · intro h
    have hkinds : (∃ p ∈ parts values, token p = .unknown) ∨
        ∀ ps : List Text, ps.Perm (parts values) →
          ∀ k, k ∈ cleared ps ↔ k ∈ skipped (parts values) := by
      rcases h with h | h | h
      · exact .inl h
      · refine .inr fun ps hp k => ?_
        rw [cleared, cleared_no_all ps (fun q hq => h q (hp.subset hq))]
        exact mem_skipped_perm ps _ hp k
      · refine .inr fun ps hp k => ?_
        rw [cleared_no_kind ps (fun q hq => h q (hp.subset hq)), skipped_no_kind _ h]
    constructor
    · rw [sameKinds_iff (argumentsFilter_reads values) (typesFilter_reads values) Iff.rfl]
      exact hkinds.imp_right fun hk event => accepts_congr _ _ (hk _ (List.Perm.refl _)) event
    · intro values' hp
      have hu : (∃ q ∈ parts values', token q = .unknown) ↔
          ∃ q ∈ parts values, token q = .unknown := by simp only [hp.mem_iff]
      rw [sameKinds_iff (argumentsFilter_reads values') (argumentsFilter_reads values) hu,
        sameKinds_iff (typesFilter_reads values') (typesFilter_reads values) hu, hu]
      constructor
      · refine hkinds.imp_right fun hk event => accepts_congr _ _ (fun k => ?_) event
        rw [hk _ hp, hk _ (List.Perm.refl _)]
      · exact .inr fun event => accepts_congr _ _ (mem_skipped_perm _ _ hp) event

/-- Everything on the command line, goals alone in the bindings. -/
theorem all_after_goal : ∃ f g, argumentsFilter ["goal, ALL"] = .ok f ∧
    typesFilter ["goal, ALL"] = .ok g ∧
    f.matches (.unknown ⟨"X",.null⟩) = true ∧ g.matches (.unknown ⟨"X",.null⟩) = false ∧
    ¬ FrontEndsAgree ["goal, ALL"] := by
  refine ⟨_,_,rfl,rfl,by decide,by decide,?_⟩
  exact reordered_differs _ "goal".toList " ALL".toList .goalScored (by decide) (by decide)
    (by decide) (by decide) (by decide)

end RlStatsApi.KindTokens
