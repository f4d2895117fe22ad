import RlStatsApi.EventFilters
import RlStatsApi.RelayLoop
import RlStatsApi.StreamProgress

/-!
# The filtered client

Asking for the next matching event asks for events until one matches, and an
event that does not match is gone. The events of a framed stream that match
are returned all the same, however the stream is read and whenever a call is
dropped; and the filtered event stream is the event stream without the events
that do not match.
-/

set_option autoImplicit false

namespace RlStatsApi.FilteredClient
open RlStatsApi.JsonValue RlStatsApi.Error RlStatsApi.EventParsing RlStatsApi.EventFilters
open RlStatsApi.StreamFraming RlStatsApi.StreamClient RlStatsApi.StreamRuns
open RlStatsApi.StreamProgress RlStatsApi.TextReader
open RlStatsApi.RelayLoop (asBytes empty_canonical emptyText emptyValue plainText plainValue texts)

variable (D : Deserializer Json) (read : Reader)

theorem value_shrinks (reader : List Read) (b b' removed : Bytes) (v : Json) (c' : Client)
    (x : Poll (Outcome (Option StatsEvent))) (hne : removed ≠ []) (hb : b = removed++b')
    (hp : tryParseEventFromBuffer D read b = (delivered read v,b'))
    (h : nextEvent D read b reader = (x,c')) :
    c'.bytes.length < (Client.bytes ⟨b,reader⟩).length := by
  rw [nextEvent_result D read b b' _ reader hp (delivered_ne_none read v)] at h
  obtain ⟨_,rfl⟩ := Prod.mk.inj h
  have hpos := List.length_pos_iff.mpr hne
  rw [hb]
  simp only [Client.bytes, List.length_append]
  omega

/-- An event that is returned has been taken from the bytes. -/
theorem nextEvent_shrinks (reader : List Read) (b : Bytes) (event : StatsEvent) (c' : Client)
    (h : nextEvent D read b reader = (.ready (.ok (some event)),c')) :
    c'.bytes.length < (Client.bytes ⟨b,reader⟩).length := by
  induction reader generalizing b with
  | nil =>
    rcases tryParse_look D read b with ⟨_,v,b',removed,hne,hb,hp⟩ | ⟨_,hp,hp'⟩ | ⟨_,hp,_⟩
    · exact value_shrinks D read _ b b' removed v c' _ hne hb hp h
    · rw [nextEvent_closed D read _ _ hp hp'] at h
      cases h
    · rw [nextEvent_result D read _ _ _ _ hp final_broken_ne] at h
      cases h
  | cons r reader ih =>
    rcases tryParse_look D read b with ⟨_,v,b',removed,hne,hb,hp⟩ | ⟨_,hp,_⟩ | ⟨_,hp,_⟩
    · exact value_shrinks D read _ b b' removed v c' _ hne hb hp h
    · cases r with
      | chunk x xs =>
        rw [nextEvent_chunk D read b _ x xs reader hp] at h
        have hlt := ih (strip b++x::xs) h
        have hle : (strip b).length ≤ b.length := (List.dropWhile_suffix _).length_le
        simp only [Client.bytes, readBytes, List.length_append, List.length_cons] at hlt ⊢
        omega
      | dropped =>
        rw [nextEvent_dropped D read _ _ _ hp] at h
        cases h
      | failed =>
        rw [nextEvent, hp] at h
        cases h
    · rw [nextEvent_result D read _ _ _ _ hp final_broken_ne] at h
      cases h

/-- Events are taken until one matches. -/
def nextFilteredEvent (filter : EventFilter) (c : Client) :
    Poll (Outcome (Option StatsEvent)) × Client :=
  match _h : c.nextEvent D read with
  | (.ready (.ok (some event)),c') =>
    if filter.matches event = true then (.ready (.ok (some event)),c')
    else nextFilteredEvent filter c'
  | (.ready (.ok none),c') => (.ready (.ok none),c')
  | (.ready (.error e),c') => (.ready (.error e),c')
  | (.dropped,c') => (.dropped,c')
termination_by c.bytes.length
decreasing_by exact nextEvent_shrinks D read c.reader c.readBuffer event c' _h

section Filter

variable (filter : EventFilter) (c c' : Client)

theorem nextFiltered_match (event : StatsEvent)
    (h : c.nextEvent D read = (.ready (.ok (some event)),c')) (hm : filter.matches event = true) :
    nextFilteredEvent D read filter c = (.ready (.ok (some event)),c') := by
  rw [nextFilteredEvent]
  split
  · next e c1 h1 =>
    rw [h] at h1
    cases h1
    rw [if_pos hm]
  all_goals
    next h1 =>
    rw [h] at h1
    cases h1

theorem nextFiltered_skip (event : StatsEvent)
    (h : c.nextEvent D read = (.ready (.ok (some event)),c')) (hm : filter.matches event = false) :
    nextFilteredEvent D read filter c = nextFilteredEvent D read filter c' := by
  rw [nextFilteredEvent]
  split
  · next e c1 h1 =>
    rw [h] at h1
    cases h1
    rw [if_neg (by simp [hm])]
  all_goals
    next h1 =>
    rw [h] at h1
    cases h1

/-- A result that is no event is passed on. -/
theorem nextFiltered_other (x : Poll (Outcome (Option StatsEvent)))
    (h : c.nextEvent D read = (x,c')) (hx : ∀ event, x ≠ .ready (.ok (some event))) :
    nextFilteredEvent D read filter c = (x,c') := by
  rw [nextFilteredEvent]
  split
  · next e c1 h1 =>
    rw [h] at h1
    cases h1
    exact absurd rfl (hx e)
  all_goals
    next h1 =>
    rw [h] at h1
    cases h1
    rfl

end Filter

/-! ## Calls on a framed stream -/

/-- What a filtered call returns of the results of the calls it makes. -/
def keeps (filter : EventFilter) : Outcome (Option StatsEvent) → Bool
  | .ok (some event) => filter.matches event
  | _ => true

/-- The results of filtered calls that were not dropped. -/
def filteredCalls (filter : EventFilter) : ℕ → Client → List (Outcome (Option StatsEvent))
  | 0, _ => []
  | n+1, c =>
    match nextFilteredEvent D read filter c with
    | (.ready result,c') => result::filteredCalls filter n c'
    | (.dropped,c') => filteredCalls filter n c'

section Calls

variable (filter : EventFilter)

theorem filteredCalls_ready (n : ℕ) (c c' : Client) (x : Outcome (Option StatsEvent))
    (h : nextFilteredEvent D read filter c = (.ready x,c')) :
    filteredCalls D read filter (n+1) c = x::filteredCalls D read filter n c' := by
  rw [filteredCalls, h]

theorem filteredCalls_dropped (n : ℕ) (c c' : Client)
    (h : nextFilteredEvent D read filter c = (.dropped,c')) :
    filteredCalls D read filter (n+1) c = filteredCalls D read filter n c' := by
  rw [filteredCalls, h]

theorem filteredCalls_ended (n : ℕ) (c : Client) (x : Outcome (Option StatsEvent))
    (h : nextFilteredEvent D read filter c = (.ready x,c)) :
    filteredCalls D read filter n c = List.replicate n x := by
  induction n with
  | zero => rfl
  | succ n ih => rw [filteredCalls_ready D read filter n c c x h, ih, List.replicate_succ]

theorem final_no_event (e : Ending) (event : StatsEvent) :
    Poll.ready (final e) ≠ .ready (.ok (some event)) := by
  cases e <;> exact fun h => by cases h

/-- A value that is kept comes out of a filtered call as it is. -/
theorem nextFiltered_kept (c c' : Client) (v : Json)
    (h : c.nextEvent D read = (.ready (delivered read v),c'))
    (hk : keeps filter (delivered read v) = true) :
    nextFilteredEvent D read filter c = (.ready (delivered read v),c') := by
  rcases hd : delivered read v with e | x
  · rw [hd] at h
    exact nextFiltered_other D read filter c c' _ h (fun event he => by cases he)
  · cases x with
    | none => exact absurd hd (delivered_ne_none read v)
    | some event =>
      rw [hd] at h hk
      exact nextFiltered_match D read filter c c' event h hk

theorem nextFiltered_passed (c c' : Client) (v : Json)
    (h : c.nextEvent D read = (.ready (delivered read v),c'))
    (hk : keeps filter (delivered read v) = false) :
    nextFilteredEvent D read filter c = nextFilteredEvent D read filter c' := by
  rcases hd : delivered read v with e | x
  · rw [hd] at hk
    cases hk
  · cases x with
    | none => exact absurd hd (delivered_ne_none read v)
    | some event =>
      rw [hd] at h hk
      exact nextFiltered_skip D read filter c c' event h hk

/-- The kept results of values. -/
def keptResults (vs : List Json) : List (Outcome (Option StatsEvent)) :=
  (vs.map (delivered read)).filter (keeps filter)

theorem kept_cons (v : Json) (vs : List Json) :
    keptResults read filter (v::vs) =
      if keeps filter (delivered read v) = true then delivered read v::keptResults read filter vs
      else keptResults read filter vs := by
  rw [keptResults, List.map_cons, List.filter_cons]
  rfl

/-- One filtered call: the first kept result, a drop, or the end, which stays. -/
theorem nextFiltered_stream (c : Client) (vs : List Json) (e : Ending) (h : Serves D c vs e) :
    (∃ x vs' c', keptResults read filter vs = x::keptResults read filter vs' ∧
      nextFilteredEvent D read filter c = (.ready x,c') ∧ Serves D c' vs' e ∧
      vs'.length < vs.length ∧ drops c'.reader ≤ drops c.reader) ∨
    (∃ vs' c', keptResults read filter vs = keptResults read filter vs' ∧
      nextFilteredEvent D read filter c = (.dropped,c') ∧ Serves D c' vs' e ∧
      vs'.length ≤ vs.length ∧ drops c'.reader < drops c.reader) ∨
    (∃ c', keptResults read filter vs = [] ∧
      nextFilteredEvent D read filter c = (.ready (final e),c') ∧
      nextFilteredEvent D read filter c' = (.ready (final e),c')) := by
  induction vs generalizing c with
  | nil =>
    rcases nextEvent_stream D read c.reader c.readBuffer [] e h with
      ⟨v,vs',c',he,_⟩ | ⟨c',hc,hs,hd⟩ | ⟨c',_,hc,hc'⟩
    · cases he
    · exact .inr (.inl ⟨[],c',rfl,nextFiltered_other D read filter c c' _ hc (by simp),hs,
        le_rfl,hd⟩)
    · exact .inr (.inr ⟨c',rfl,nextFiltered_other D read filter c c' _ hc (final_no_event e),
        nextFiltered_other D read filter c' c' _ hc' (final_no_event e)⟩)
  | cons v vs ih =>
    rcases nextEvent_stream D read c.reader c.readBuffer (v::vs) e h with
      ⟨v',vs',c',he,hc,hs,hd⟩ | ⟨c',hc,hs,hd⟩ | ⟨c',he,_⟩
    · cases he
      by_cases hk : keeps filter (delivered read v) = true
      · left
        refine ⟨delivered read v,vs,c',?_,nextFiltered_kept D read filter c c' v hc hk,hs,
          Nat.lt_succ_self _,hd⟩
        rw [kept_cons, if_pos hk]
      · have hpass := nextFiltered_passed D read filter c c' v hc (by simpa using hk)
        rw [hpass, kept_cons, if_neg hk]
        rcases ih c' hs with ⟨x,vs',c2,hx,hn,hs2,hl,hd2⟩ | ⟨vs',c2,hx,hn,hs2,hl,hd2⟩ | hend
        · exact .inl ⟨x,vs',c2,hx,hn,hs2,Nat.lt_succ_of_lt hl,hd2.trans hd⟩
        · exact .inr (.inl ⟨vs',c2,hx,hn,hs2,Nat.le_succ_of_le hl,lt_of_lt_of_le hd2 hd⟩)
        · exact .inr (.inr hend)
    · exact .inr (.inl ⟨v::vs,c',rfl,nextFiltered_other D read filter c c' _ hc (by simp),hs,
        le_rfl,hd⟩)
    · cases he

/-- Enough filtered calls on a framed stream return every result that the
filter keeps, once and in order, and then the stream's end: however the stream
is cut into reads, and whichever calls are dropped on the way. -/
theorem filtered_calls_stream (c : Client) (vs : List Json) (e : Ending) (h : Serves D c vs e) :
    ∃ k, ∀ n, filteredCalls D read filter (k+n) c =
      keptResults read filter vs++List.replicate n (final e) := by
  generalize hm : vs.length+drops c.reader = m
  induction m using Nat.strong_induction_on generalizing c vs with
  | _ m ih =>
    rcases nextFiltered_stream D read filter c vs e h with
      ⟨x,vs',c',hx,hc,hs,hl,hd⟩ | ⟨vs',c',hx,hc,hs,hl,hd⟩ | ⟨c',hx,hc,hc'⟩
    · obtain ⟨k,hk⟩ := ih _ (by omega) c' vs' hs rfl
      refine ⟨k+1,fun n => ?_⟩
      rw [Nat.add_right_comm, filteredCalls_ready D read filter _ c c' x hc, hk, hx]
      rfl
    · obtain ⟨k,hk⟩ := ih _ (by omega) c' vs' hs rfl
      refine ⟨k+1,fun n => ?_⟩
      rw [Nat.add_right_comm, filteredCalls_dropped D read filter _ c c' hc, hk, hx]
    · refine ⟨0,fun n => ?_⟩
      rw [hx, Nat.zero_add, List.nil_append]
      cases n with
      | zero => rfl
      | succ n =>
        rw [filteredCalls_ready D read filter n c c' _ hc,
          filteredCalls_ended D read filter n c' _ hc', List.replicate_succ]

end Calls

/-! ### Four values and a filter for one kind -/

def roundMembers : Members := [("Data",.object []),("Event",.string "RoundStarted")]

def roundValue : Json :=
  ⟨.object roundMembers,.object _ (List.pairwise_pair.mpr (by decide))
    (by simp [roundMembers, empty_canonical, Value.Canonical.string])⟩

def roundText : Bytes := asBytes "\x7b\"Event\":\"RoundStarted\",\"Data\":\x7b\x7d\x7d"

def mixedTexts : List (Bytes × Json) := (roundText,roundValue)::texts

def mixed : Deserializer Json := ofTexts mixedTexts

theorem mixed_framed (t : Bytes) (v : Json) (hm : (t,v) ∈ mixedTexts) (hs : Starts t) :
    Framed mixed t v := ofTexts_framed mixedTexts (by decide) t v hm hs

theorem mixed_stream : Stream mixed (plainText++(roundText++(emptyText++(plainText++[]))))
    [plainValue,roundValue,emptyValue,plainValue] .closed := by
  have hplain : Framed mixed plainText plainValue :=
    mixed_framed _ _ (by simp [mixedTexts, texts]) ⟨123,_,rfl,rfl⟩
  have hround : Framed mixed roundText roundValue :=
    mixed_framed _ _ (by simp [mixedTexts, texts]) ⟨123,_,rfl,rfl⟩
  have hempty : Framed mixed emptyText emptyValue :=
    mixed_framed _ _ (by simp [mixedTexts, texts]) ⟨123,_,rfl,rfl⟩
  exact .text plainText _ _ _ _ hplain (.text roundText _ _ _ _ hround
    (.text emptyText _ _ _ _ hempty (.text plainText _ _ _ _ hplain
      (.tail [] .closed (fun h => absurd rfl h)))))

/-- The object without members is cut in two, and two calls are dropped. -/
def mixedClient : Client :=
  .connect [.chunk 123 plainText.tail,.dropped,.chunk 123 (roundText.tail++[123]),.dropped,
    .chunk 125 plainText]

theorem mixedClient_serves :
    Serves mixed mixedClient [plainValue,roundValue,emptyValue,plainValue] .closed where
  quiet := by simp [mixedClient, Client.connect]
  stream := mixed_stream

def roundEvent : StatsEvent := .roundStarted ⟨none,[]⟩

/-- The unknown events are left out, and the error of the value that is no
event is not. -/
theorem rounds_filtered : ∃ k, ∀ n,
    filteredCalls mixed noText (EventFilter.new.includeKind .roundStarted) (k+n) mixedClient =
      [.ok (some roundEvent),.error (.json .data)]++List.replicate n (.ok none) :=
  filtered_calls_stream mixed noText (EventFilter.new.includeKind .roundStarted) mixedClient _ _
    mixedClient_serves

/-! ## The filtered stream -/

/-- One step of `into_filtered_event_stream`. -/
def filteredStep (filter : EventFilter) (c : Client) : Option (Outcome StatsEvent × Client) :=
  match nextFilteredEvent D read filter c with
  | (.ready (.ok (some event)),c') => some (.ok event,c')
  | (.ready (.ok none),_) => none
  | (.ready (.error e),c') => some (.error e,c')
  | (.dropped,_) => none

def filteredItems (filter : EventFilter) : ℕ → Client → List (Outcome StatsEvent)
  | 0, _ => []
  | n+1, c =>
    match filteredStep D read filter c with
    | none => []
    | some (item,c') => item::filteredItems filter n c'

def FilteredEnds (filter : EventFilter) (c : Client) : Prop :=
  ∃ n, (filteredItems D read filter n c).length < n

/-- Errors are items like any other. -/
def keepsItem (filter : EventFilter) : Outcome StatsEvent → Bool
  | .ok event => filter.matches event
  | .error _ => true

section Stream

variable (filter : EventFilter)

/-- What the filtered step makes of a step of the stream. -/
inductive FilteredStepped (c : Client) : Prop
  | ended (hs : streamStep D read c = none) (hf : filteredStep D read filter c = none)
  | kept (item : Outcome StatsEvent) (c' : Client) (hk : keepsItem filter item = true)
      (hs : streamStep D read c = some (item,c'))
      (hf : filteredStep D read filter c = some (item,c'))
  | passed (item : Outcome StatsEvent) (c' : Client) (hk : keepsItem filter item = false)
      (hs : streamStep D read c = some (item,c'))
      (hf : filteredStep D read filter c = filteredStep D read filter c')
      (hlt : c'.bytes.length < c.bytes.length)

theorem filteredStep_cases (c : Client) : FilteredStepped D read filter c := by
  cases hc : c.nextEvent D read with
  | mk x c' =>
    cases x with
    | dropped =>
      refine .ended (by rw [streamStep, hc]) ?_
      rw [filteredStep, nextFiltered_other D read filter c c' _ hc (by simp)]
    | ready r =>
      cases r with
      | error e =>
        refine .kept (.error e) c' rfl (by rw [streamStep, hc]) ?_
        rw [filteredStep, nextFiltered_other D read filter c c' _ hc (by simp)]
      | ok o =>
        cases o with
        | none =>
          refine .ended (by rw [streamStep, hc]) ?_
          rw [filteredStep, nextFiltered_other D read filter c c' _ hc (by simp)]
        | some event =>
          have hs : streamStep D read c = some (.ok event,c') := by rw [streamStep, hc]
          cases hm : filter.matches event with
          | true =>
            refine .kept (.ok event) c' hm hs ?_
            rw [filteredStep, nextFiltered_match D read filter c c' event hc hm]
          | false =>
            refine .passed (.ok event) c' hm hs ?_
              (nextEvent_shrinks D read c.reader c.readBuffer event c' hc)
            rw [filteredStep, nextFiltered_skip D read filter c c' event hc hm]
            rfl

theorem filteredItems_congr (c c' : Client)
    (h : filteredStep D read filter c = filteredStep D read filter c') (n : ℕ) :
    filteredItems D read filter n c = filteredItems D read filter n c' := by
  cases n with
  | zero => rfl
  | succ n => rw [filteredItems, filteredItems, h]

theorem items_agree (n : ℕ) (c : Client) :
    ∃ m₀, ∀ m, m₀ ≤ m → filteredItems D read filter n c =
      ((streamItems D read m c).filter (keepsItem filter)).take n := by
  induction n generalizing c with
  | zero => exact ⟨0,fun m _ => by rw [List.take_zero]; rfl⟩
  | succ n ihn =>
    -- an item that is passed over leaves fewer bytes
    generalize hb : c.bytes.length = b
    induction b using Nat.strong_induction_on generalizing c with
    | _ b ihb =>
      cases filteredStep_cases D read filter c with
      | ended hs hf =>
        refine ⟨0,fun m _ => ?_⟩
        cases m with
        | zero => rw [filteredItems, hf]; rfl
        | succ m => rw [filteredItems, hf, streamItems, hs]; rfl
      | kept item c' hk hs hf =>
        obtain ⟨m₀,hm₀⟩ := ihn c'
        refine ⟨m₀+1,fun m hm => ?_⟩
        cases m with
        | zero => omega
        | succ m =>
          rw [filteredItems, hf, streamItems, hs]
          simp only [List.filter_cons, hk, if_true, List.take_succ_cons]
          rw [hm₀ m (by omega)]
      | passed item c' hk hs hf hlt =>
        obtain ⟨m₀,hm₀⟩ := ihb c'.bytes.length (by omega) c' rfl
        refine ⟨m₀+1,fun m hm => ?_⟩
        cases m with
        | zero => omega
        | succ m =>
          rw [filteredItems_congr D read filter c c' hf, streamItems, hs]
          simp only [List.filter_cons, hk, Bool.false_eq_true, if_false]
          exact hm₀ m (by omega)

theorem filteredEnds_step (c c' : Client) (item : Outcome StatsEvent)
    (h : filteredStep D read filter c = some (item,c')) :
    FilteredEnds D read filter c ↔ FilteredEnds D read filter c' := by
  have hitems : ∀ n, filteredItems D read filter (n+1) c =
      item::filteredItems D read filter n c' := by
    intro n
    rw [filteredItems, h]
  constructor
  · rintro ⟨n,hn⟩
    cases n with
    | zero => simp at hn
    | succ n =>
      rw [hitems, List.length_cons] at hn
      exact ⟨n,by omega⟩
  · rintro ⟨n,hn⟩
    exact ⟨n+1,by rw [hitems, List.length_cons]; omega⟩

theorem filteredEnds_congr (c c' : Client)
    (h : filteredStep D read filter c = filteredStep D read filter c') :
    FilteredEnds D read filter c ↔ FilteredEnds D read filter c' := by
  unfold FilteredEnds
  simp only [filteredItems_congr D read filter c c' h]

theorem streamEnds_of_step_none (c : Client) (h : streamStep D read c = none) :
    StreamEnds D read c := ⟨1,by rw [streamItems, h]; exact Nat.zero_lt_one⟩

/-- The stream ends when the filtered stream does. -/
theorem ends_of_filteredEnds (n : ℕ) (c : Client)
    (h : (filteredItems D read filter n c).length < n) : StreamEnds D read c := by
  induction n generalizing c with
  | zero => omega
  | succ n ihn =>
    generalize hb : c.bytes.length = b
    induction b using Nat.strong_induction_on generalizing c with
    | _ b ihb =>
      cases filteredStep_cases D read filter c with
      | ended hs hf => exact streamEnds_of_step_none D read c hs
      | kept item c' hk hs hf =>
        rw [streamEnds_step D read c c' item hs]
        rw [filteredItems, hf, List.length_cons] at h
        exact ihn c' (by omega)
      | passed item c' hk hs hf hlt =>
        rw [streamEnds_step D read c c' item hs]
        rw [filteredItems_congr D read filter c c' hf] at h
        exact ihb c'.bytes.length (by omega) c' h rfl

theorem filteredEnds_of_ends (n : ℕ) (c : Client) (h : (streamItems D read n c).length < n) :
    FilteredEnds D read filter c := by
  induction n generalizing c with
  | zero => omega
  | succ n ih =>
    cases filteredStep_cases D read filter c with
    | ended hs hf => exact ⟨1,by rw [filteredItems, hf]; exact Nat.zero_lt_one⟩
    | kept item c' hk hs hf =>
      rw [streamItems, hs, List.length_cons] at h
      exact (filteredEnds_step D read filter c c' item hf).mpr (ih c' (by omega))
    | passed item c' hk hs hf hlt =>
      rw [streamItems, hs, List.length_cons] at h
      exact (filteredEnds_congr D read filter c c' hf).mpr (ih c' (by omega))

/-- The filtered stream is the stream without the events that do not match:
the same items in the same order, errors among them, and the same end. -/
theorem filtered_stream_items (c : Client) :
    (∀ n, ∃ m₀, ∀ m, m₀ ≤ m → filteredItems D read filter n c =
      ((streamItems D read m c).filter (keepsItem filter)).take n) ∧
    (FilteredEnds D read filter c ↔ StreamEnds D read c) :=
  ⟨fun n => items_agree D read filter n c,
    fun ⟨n,hn⟩ => ends_of_filteredEnds D read filter n c hn,
    fun ⟨n,hn⟩ => filteredEnds_of_ends D read filter n c hn⟩

end Stream

end RlStatsApi.FilteredClient
