import RlStatsApi.RlEvents

/-!
# The maximum of messages

The loops of the relay and the broadcaster put out the translations of the
events that the source yields, one message after the other. With a maximum
they stop at it, in the middle of an event if need be; only the maximum 0 is
exceeded, by the first message.
-/

set_option autoImplicit false

namespace RlStatsApi.MaxEvents
open RlStatsApi.TextLines RlStatsApi.Error RlStatsApi.JsonValue RlStatsApi.EventParsing
open RlStatsApi.EventFilters RlStatsApi.SosTranslation RlStatsApi.StreamClient
open RlStatsApi.RelayLoop RlStatsApi.CountedOutput RlStatsApi.RlEvents RlStatsApi.TextReader

section Relay

variable {σ τ : Type} (S : Source σ) (T : Sink τ) (maxEvents : Option ℕ)

theorem forward_cons (e : SosEnvelope) (envelopes : List SosEnvelope) (relayed : ℕ) (t : τ) :
    forward T maxEvents (e::envelopes) relayed t =
      if reached maxEvents (relayed+1) = true then (some .maxEvents,relayed+1,T.send t e)
      else forward T maxEvents envelopes (relayed+1) (T.send t e) := rfl

theorem count_cons (e : SosEnvelope) (envelopes : List SosEnvelope) (relayed : ℕ) :
    relayed+(e::envelopes).length = relayed+1+envelopes.length := by
  rw [List.length_cons]
  omega

/-- The messages of one event, when the loop goes on after them. -/
theorem forward_running (envelopes : List SosEnvelope) (relayed : ℕ) (t : τ)
    (h : Running maxEvents relayed) (hr : Running maxEvents (relayed+envelopes.length)) :
    forward T maxEvents envelopes relayed t =
      (none,relayed+envelopes.length,envelopes.foldl T.send t) := by
  induction envelopes generalizing relayed t with
  | nil => rfl
  | cons e envelopes ih =>
    rw [count_cons] at hr ⊢
    have hone : Running maxEvents (relayed+1) := fun m hm => by
      have := hr m hm
      omega
    have hgo : reached maxEvents (relayed+1) = false := (running_succ_iff h).mp hone
    rw [forward_cons, hgo, if_neg Bool.false_ne_true, ih _ _ hone hr, List.foldl_cons]

theorem forward_stopped (envelopes : List SosEnvelope) (relayed : ℕ) (t : τ)
    (h : Running maxEvents relayed) (hr : ¬ Running maxEvents (relayed+envelopes.length)) :
    ∃ n t', forward T maxEvents envelopes relayed t = (some .maxEvents,n,t') ∧
      T.handed t' = T.handed t++bounded maxEvents relayed envelopes := by
  induction envelopes generalizing relayed t with
  | nil => exact absurd h hr
  | cons e envelopes ih =>
    rw [forward_cons]
    by_cases hs : reached maxEvents (relayed+1) = true
    · refine ⟨_,_,if_pos hs,?_⟩
      rw [bounded_cons_stopped h e _ hs, T.handed_send]
    · rw [if_neg hs]
      rw [Bool.not_eq_true] at hs
      rw [count_cons] at hr
      obtain ⟨n,t',hf,ht⟩ := ih (relayed+1) (T.send t e) ((running_succ_iff h).mpr hs) hr
      refine ⟨n,t',hf,?_⟩
      rw [ht, bounded_cons_running h e _ hs, T.handed_send, List.append_assoc]
      rfl

/-- A turn with a maximum stops there, or does what it does without one. -/
theorem turn_limited (w : World σ τ) (h : Running maxEvents w.relayed) :
    (turn S T maxEvents w).1 = some .maxEvents ∨
      turn S T maxEvents w = turn S T none w ∧
        Running maxEvents (turn S T none w).2.relayed := by
  unfold turn
  rcases S.nextEvent w.source with ⟨⟨⟨e⟩ | ⟨_ | event⟩⟩ | _,s⟩
  · exact .inr ⟨rfl,by simpa only [afterReconnect_relayed] using h⟩
  · exact .inr ⟨rfl,by simpa only [afterReconnect_relayed] using h⟩
  · simp only [translateStatsEvent_eq, forward_all]
    by_cases hr : Running maxEvents (w.relayed+(translation event).length)
    · rw [forward_running T maxEvents _ _ _ h hr]
      exact .inr ⟨rfl,hr⟩
    · obtain ⟨n,t',hf,_⟩ := forward_stopped T maxEvents _ _ w.sink h hr
      rw [hf]
      exact .inl rfl
  · exact .inr ⟨rfl,h⟩

/-- With a maximum the loop exits no later than without one. -/
theorem mainLoop_limited (k : ℕ) (w : World σ τ) (h : Running maxEvents w.relayed)
    (hexit : (mainLoop S T none k w).1 ≠ none) : (mainLoop S T maxEvents k w).1 ≠ none := by
  induction k generalizing w with
  | zero => exact absurd rfl hexit
  | succ k ih =>
    rw [mainLoop] at hexit ⊢
    rcases turn_limited S T maxEvents w h with hstop | ⟨hsame,hrunning⟩
    · cases ht : turn S T maxEvents w with
      | mk exit v =>
        rw [ht] at hstop
        cases hstop
        simp
    · rw [hsame]
      cases ht : turn S T none w with
      | mk exit v =>
        rw [ht] at hexit hrunning
        cases exit with
        | none => exact ih v hrunning hexit
        | some exit => simp

/-- What a run has handed over: the translations of the events drawn, up to
the maximum. -/
theorem mainLoop_handed_bounded (k : ℕ) (w : World σ τ) (h : Running maxEvents w.relayed) :
    T.handed (mainLoop S T maxEvents k w).2.sink = T.handed w.sink++
      bounded maxEvents w.relayed ((drawn S k w.source).flatMap translation) := by
  induction k generalizing w with
  | zero => simp [mainLoop, drawn]
  | succ k ih =>
    rw [mainLoop, turn, drawn]
    rcases hs : S.nextEvent w.source with ⟨⟨⟨e⟩ | ⟨_ | event⟩⟩ | _,s⟩
    · simp only [afterReconnect]
      rcases hr : reconnectRlWithBackoff S 10 none s with ⟨_ | _,s'⟩
      · simp
      · exact ih _ h
    · simp only [afterReconnect]
      rcases hr : reconnectRlWithBackoff S 10 none s with ⟨_ | _,s'⟩
      · simp
      · exact ih _ h
    · simp only [translateStatsEvent_eq, List.flatMap_cons]
      by_cases hr : Running maxEvents (w.relayed+(translation event).length)
      · rw [forward_running T maxEvents _ _ _ h hr]
        simp only
        rw [ih _ hr, handed_sendAll, bounded_append_running h _ _ hr, List.append_assoc]
      · obtain ⟨n,t',hf,ht⟩ := forward_stopped T maxEvents _ _ w.sink h hr
        rw [hf]
        simp only
        rw [ht, bounded_append_stopped h _ _ hr]
    · simp

/-- The messages that a run from the start hands over to the sink. -/
def relayedMessages (k : ℕ) (s : σ) (t : τ) : List SosEnvelope :=
  (T.handed (mainLoop S T maxEvents k ⟨s,t,0⟩).2.sink).drop (T.handed t).length

theorem relayedMessages_eq (k : ℕ) (s : σ) (t : τ) : relayedMessages S T maxEvents k s t =
    bounded maxEvents 0 ((drawn S k s).flatMap translation) := by
  rw [relayedMessages, mainLoop_handed_bounded S T maxEvents k _ (running_zero maxEvents),
    List.drop_left]

end Relay

theorem translation_ne_nil (event : StatsEvent) : translation event ≠ [] := by
  cases event <;> exact List.cons_ne_nil _ _

theorem no_messages_iff (events : List StatsEvent) : events.flatMap translation = [] ↔ events = [] := by
  rw [List.flatMap_eq_nil_iff]
  cases events with
  | nil => simp
  | cons event events =>
    simp only [List.mem_cons, forall_eq_or_imp, reduceCtorEq, iff_false, not_and]
    exact fun he => absurd he (translation_ne_nil event)

/-- The events that a run of the printer prints. -/
def streamMessages {σ : Type} (S : Source σ) (cli : CliOptions) (k : ℕ) (s : σ) : List StatsEvent :=
  (runStreamMode cli (buildEventFilter cli) S k ⟨s,[],0⟩).2.printed

def stdinMessages (read : Reader) (cli : CliOptions) (strict : Bool)
    (lines : List (Option Text)) : List StatsEvent :=
  (runStdinMode cli (buildEventFilter cli) read strict lines).2

theorem streamMessages_eq {σ : Type} (S : Source σ) (cli : CliOptions) (k : ℕ) (s : σ) :
    streamMessages S cli k s =
      bounded cli.maxEvents 0 ((drawn S k s).filter (buildEventFilter cli).matches) :=
  runStreamMode_printed S cli _ k ⟨s,[],0⟩ (running_zero _)

theorem stdinMessages_eq (read : Reader) (cli : CliOptions) (strict : Bool)
    (lines : List (Option Text)) : stdinMessages read cli strict lines =
      bounded cli.maxEvents 0 ((lineEvents read strict lines).filter (buildEventFilter cli).matches) :=
  stdinLoop_printed cli _ read strict 0 lines [] 0 (running_zero _)

/-- With the maximum `n` each program puts out the first `n` of the messages
it puts out without one, if and only if `n` is not 0 or there is nothing to
put out at all: no event for the relays, no passing event for the printer. -/
theorem limited_output_iff {σ : Type} (n : ℕ) (S : Source σ) (k : ℕ) (s : σ) (overlay : Overlay)
    (channel : Channel) (cli : CliOptions) (read : Reader) (strict : Bool)
    (lines : List (Option Text)) :
    (relayedMessages S relaySink (some n) k s overlay =
        (relayedMessages S relaySink none k s overlay).take n ↔ 1 ≤ n ∨ drawn S k s = []) ∧
    (relayedMessages S broadcastSink (some n) k s channel =
        (relayedMessages S broadcastSink none k s channel).take n ↔ 1 ≤ n ∨ drawn S k s = []) ∧
    (streamMessages S {cli with maxEvents := some n} k s =
        (streamMessages S {cli with maxEvents := none} k s).take n ↔
      1 ≤ n ∨ (drawn S k s).filter (buildEventFilter cli).matches = []) ∧
    (stdinMessages read {cli with maxEvents := some n} strict lines =
        (stdinMessages read {cli with maxEvents := none} strict lines).take n ↔
      1 ≤ n ∨ (lineEvents read strict lines).filter (buildEventFilter cli).matches = []) := by
  simp only [relayedMessages_eq, streamMessages_eq, stdinMessages_eq, bounded_none]
  refine ⟨?_,?_,?_,?_⟩
  · rw [bounded_take_iff, no_messages_iff]
  · rw [bounded_take_iff, no_messages_iff]
  · exact bounded_take_iff n _
  · exact bounded_take_iff n _

def plainLink : Link := ⟨.connect [.chunk 123 plainText.tail],[]⟩

/-- A reader of one text, which is an event of an unknown name. -/
def readPlain : Reader := .ofValues fun text =>
  if text = "x" then .ok (.object plainMembers) else .error .malformed

/-- One message is put out although the maximum is 0. -/
theorem zero_exceeded :
    relayedMessages (clientSource objects noText) relaySink (some 0) 1 plainLink noTrouble =
      [plainEnvelope] ∧
    relayedMessages (clientSource objects noText) broadcastSink (some 0) 1 plainLink ⟨[],[]⟩ =
      [plainEnvelope] ∧
    (streamMessages (clientSource objects noText) {maxEvents := some 0} 1 plainLink).length = 1 ∧
    (stdinMessages readPlain {maxEvents := some 0} false [some ['x']]).length = 1 :=
  ⟨rfl,rfl,rfl,rfl⟩

end RlStatsApi.MaxEvents
