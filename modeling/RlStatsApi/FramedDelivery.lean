import RlStatsApi.BroadcastServer
import RlStatsApi.MaxEvents

/-!
# From the game's bytes to the overlays

The game's stream is framed on every connection that the broadcaster gets.
However the bytes are cut into reads and the tasks take turns, the overlays
are written the translations of what is accepted on each connection, up to
the maximum of messages, and all of these have been offered when the
broadcaster stops without a signal.
-/

set_option autoImplicit false

namespace RlStatsApi.FramedDelivery
open RlStatsApi.JsonValue RlStatsApi.Error RlStatsApi.EventParsing RlStatsApi.SosTranslation
open RlStatsApi.StreamFraming RlStatsApi.StreamClient RlStatsApi.StreamRuns RlStatsApi.RelayLoop
open RlStatsApi.BoundedBroadcast RlStatsApi.OverlayClients RlStatsApi.BroadcastServer
open RlStatsApi.CountedOutput RlStatsApi.RlEvents RlStatsApi.MaxEvents RlStatsApi.TextReader

variable (D : Deserializer Json) (read : Reader)
  (write : SosEnvelope → String)

/-- The payloads on a first connection and on those that follow, up to the
maximum. -/
def payloadsOn (maxEvents : Option ℕ) (vs : List Json) (rest : List Connection) : List String :=
  (bounded maxEvents 0 (translationsOn read vs rest)).map write

/-- What the overlays have of the payloads. -/
structure Delivered (all : List String) (s : System Main) : Prop where
  offered : s.server.outgoing.offered <+: all
  written : ∀ c ∈ s.server.clients, c.written.Sublist (all.drop c.receiver.first)
  unbroken : ∀ c ∈ s.server.clients, skipped c.receiver.history = 0 →
    c.written <+: all.drop c.receiver.first

def linkOf (c : StreamClient.Client) (rest : List Connection) : Link :=
  ⟨c,rest.flatMap Connection.attempts⟩

/-- The loop comes to its end and hands over all payloads. -/
theorem loop_hands_over (maxEvents : Option ℕ) (c : StreamClient.Client) (vs : List Json)
    (e : Ending) (hs : Serves D c vs e) (hd : drops c.reader = 0) (rest : List Connection)
    (hr : ∀ x ∈ rest, x.Ready D) :
    ∃ k, (loopFrom (clientSource D read) maxEvents k (linkOf c rest) []).1 ≠ none ∧
      (handedOver (loopFrom (clientSource D read) maxEvents k (linkOf c rest) [])).map write =
        payloadsOn read write maxEvents vs rest := by
  obtain ⟨k,w,hk,hh⟩ := run_connections D read broadcastSink c vs e hs hd rest hr ⟨[],[]⟩ 0
  have hdrawn : translationsOn read vs rest =
      (drawn (clientSource D read) k (linkOf c rest)).flatMap translation := by
    have hm := mainLoop_handed_bounded (clientSource D read) broadcastSink none k
      ⟨linkOf c rest,⟨[],[]⟩,0⟩ (running_zero none)
    rw [linkOf, hk, hh] at hm
    exact hm
  refine ⟨k,?_,?_⟩
  · refine mainLoop_limited _ broadcastSink maxEvents k _ (running_zero maxEvents) ?_
    rw [linkOf, hk]
    exact Option.some_ne_none _
  · rw [payloadsOn, hdrawn, handedOver, loopFrom,
      mainLoop_handed_bounded _ _ _ _ _ (running_zero maxEvents)]
    rfl

/-- A link on which no call is dropped. -/
structure Calm (l : Link) : Prop where
  client : drops l.client.reader = 0
  attempts : ∀ reader, some reader ∈ l.attempts → drops reader = 0

theorem linkOf_calm (c : StreamClient.Client) (hd : drops c.reader = 0) (rest : List Connection)
    (hr : ∀ x ∈ rest, x.Ready D) : Calm (linkOf c rest) where
  client := hd
  attempts reader hreader := by
    obtain ⟨x,hx,hmem⟩ := List.mem_flatMap.mp hreader
    rcases List.mem_append.mp hmem with hnone | hone
    · cases (List.mem_replicate.mp hnone).2
    · cases List.mem_singleton.mp hone
      exact (hr x hx).running

theorem reconnect_calm (l : Link) (hl : Calm l) :
    Calm ((clientSource D read).reconnect l).2 := by
  obtain ⟨c,attempts⟩ := l
  have hrest : ∀ a rest, attempts = a::rest → ∀ reader, some reader ∈ rest → drops reader = 0 :=
    fun a rest ha reader hm => hl.attempts reader (by rw [ha]; exact List.mem_cons_of_mem a hm)
  rcases attempts with _ | ⟨_ | reader,rest⟩
  · exact hl
  · exact ⟨hl.client,hrest none rest rfl⟩
  · exact ⟨hl.attempts reader List.mem_cons_self,hrest (some reader) rest rfl⟩

theorem answered_calm (l l' : Link) (o : Occurrence) (hl : Calm l)
    (h : Answered (clientSource D read) l o l') : Calm l' ∧ o ≠ .signal := by
  obtain ⟨x,c',hready,hdrops⟩ := nextEvent_ready D read l.client.reader l.client.readBuffer hl.client
  have hnext : (clientSource D read).nextEvent l = (.ready x,⟨c',l.attempts⟩) := by
    simp only [clientSource, StreamClient.Client.nextEvent, hready]
  cases h with
  | returned r _ h =>
    rw [hnext] at h
    cases h
    exact ⟨⟨hdrops,hl.attempts⟩,by simp⟩
  | signalled _ h =>
    rw [hnext] at h
    cases h
  | reconnected _ h | refused e _ h =>
    have hcalm := reconnect_calm D read l hl
    rw [h] at hcalm
    exact ⟨hcalm,by simp⟩
  | _ => exact ⟨hl,by simp⟩

theorem fed_calm (l l' : Link) (os : List Occurrence) (hl : Calm l)
    (h : Fed (clientSource D read) l os l') : .signal ∉ os := by
  induction h with
  | nil l => exact List.not_mem_nil
  | cons l l1 l2 o os ha _ ih =>
    obtain ⟨hcalm,ho⟩ := answered_calm D read l l1 o hl ha
    rw [List.mem_cons, not_or]
    exact ⟨ho.symm,ih hcalm⟩

def isSignal : Occurrence → Bool
  | .signal => true
  | _ => false

/-- What happens to the main task, but for the shutdown signal. -/
def answers (os : List Occurrence) : List Occurrence := os.filter (fun o => !isSignal o)

theorem answers_all (os : List Occurrence) (h : .signal ∉ os) : answers os = os := by
  refine List.filter_eq_self.mpr fun o ho => ?_
  cases o with
  | signal => exact absurd ho h
  | _ => rfl

/-- The signal may cut short what is emitted, and nothing else can. -/
theorem emitted_payloads (maxEvents : Option ℕ) (c : StreamClient.Client) (vs : List Json)
    (e : Ending) (hs : Serves D c vs e) (hd : drops c.reader = 0) (rest : List Connection)
    (hr : ∀ x ∈ rest, x.Ready D) (os : List Occurrence) (l : Link) (m : Main)
    (emitted : List MainAct) (hfed : Fed (clientSource D read) (linkOf c rest) (answers os) l)
    (hp : produce (mainTask maxEvents write) .start os = some (m,emitted)) :
    payloads emitted <+: payloadsOn read write maxEvents vs rest ∧
    (.signal ∉ os → finished m.phase = true →
      payloads emitted = payloadsOn read write maxEvents vs rest) := by
  obtain ⟨k,hexit,hall⟩ := loop_hands_over D read write maxEvents c vs e hs hd rest hr
  by_cases hsignal : .signal ∈ os
  · obtain ⟨before,after,rfl,hfirst⟩ := List.eq_append_cons_of_mem hsignal
    obtain ⟨m1,emitted1,hp1,hsame⟩ := produce_signalled maxEvents write _ m before after emitted hp
    rw [answers, List.filter_append] at hfed
    obtain ⟨l1,hfed1⟩ := fed_begins _ _ _ _ _ hfed
    have hbefore := answers_all before hfirst
    rw [answers] at hbefore
    rw [hbefore] at hfed1
    obtain ⟨_,hexited,_⟩ := loop_comparable (clientSource D read) maxEvents write k (linkOf c rest)
      l1 [] before m1 emitted1 hfed1 hp1
    rw [hsame, ← hall]
    exact ⟨hexited hexit,fun hno => absurd hsignal hno⟩
  · rw [answers_all os hsignal] at hfed
    obtain ⟨_,hexited,hfinished⟩ := loop_comparable (clientSource D read) maxEvents write k
      (linkOf c rest) l [] os m emitted hfed hp
    rw [← hall]
    exact ⟨hexited hexit,fun _ hf =>
      (hexited hexit).eq_of_length_le (hfinished hf).length_le⟩

/-- In every run that the framed connections feed, with the signal at any time,
what is offered and what each overlay is written are parts of the accepted
events' payloads up to the maximum, in order and once. A run that is over without
the signal has offered all of them, and there is one. -/
theorem frames_reach_overlays (maxEvents : Option ℕ) (c : StreamClient.Client) (vs : List Json)
    (e : Ending) (hs : Serves D c vs e) (hd : drops c.reader = 0) (rest : List Connection)
    (hr : ∀ x ∈ rest, x.Ready D) (capacity : ℕ) :
    (∃ acts s l, Fed (clientSource D read) (linkOf c rest) (answers (occurrences acts)) l ∧
      Runs maxEvents write capacity acts s ∧ .signal ∉ occurrences acts ∧
      finished s.main.phase = true) ∧
    ∀ acts s l, Fed (clientSource D read) (linkOf c rest) (answers (occurrences acts)) l →
      Runs maxEvents write capacity acts s →
      Delivered (payloadsOn read write maxEvents vs rest) s ∧
      (.signal ∉ occurrences acts → finished s.main.phase = true →
        s.server.outgoing.offered = payloadsOn read write maxEvents vs rest) := by
  constructor
  · obtain ⟨k,hexit,_⟩ := loop_hands_over D read write maxEvents c vs e hs hd rest hr
    obtain ⟨acts,s,hfed,hrun,hmain⟩ :=
      loop_taken (clientSource D read) maxEvents write capacity k (linkOf c rest) []
    have hquiet := fed_calm D read _ _ _ (linkOf_calm D c hd rest hr) hfed
    refine ⟨acts,s,_,by rwa [answers_all _ hquiet],hrun,hquiet,?_⟩
    rw [hmain]
    cases he : (loopFrom (clientSource D read) maxEvents k (linkOf c rest) []).1 with
    | none => exact absurd he hexit
    | some exit => cases exit <;> rfl
  · intro acts s l hfed hrun
    obtain ⟨emitted,hp⟩ := run_produced (mainTask maxEvents write) capacity .start acts s hrun
    have hemitted : s.server.outgoing.offered = payloads emitted := hp.offered
    obtain ⟨hoffered,hall⟩ := emitted_payloads D read write maxEvents c vs e hs hd rest hr
      (occurrences acts) l s.main emitted hfed hp.produced
    rw [← hemitted] at hoffered hall
    have hkept := run_kept (mainTask maxEvents write) capacity .start acts s hrun
    refine ⟨⟨hoffered,?_,?_⟩,hall⟩
    · intro cl hcl
      exact (kept_sublist capacity _ cl (hkept.clients cl hcl)).trans
        (hoffered.drop cl.receiver.first).sublist
    · intro cl hcl hskip
      exact (kept_unbroken capacity _ cl (hkept.clients cl hcl) hskip).trans
        (hoffered.drop cl.receiver.first)

/-- The first connection is given up at its first value, and a third one is
not needed for the one message that is asked for. -/
theorem plainAgain_reaches_overlays :
    payloadsOn noText SosEnvelope.event (some 1) [emptyValue,plainValue] [plainAgain,plainAgain] =
      ["X"] ∧
    ∃ acts s l, Fed (clientSource objects noText) (linkOf rejectedFirst [plainAgain,plainAgain])
        (answers (occurrences acts)) l ∧
      Runs (some 1) SosEnvelope.event 1024 acts s ∧ s.server.outgoing.offered = ["X"] := by
  refine ⟨rfl,?_⟩
  obtain ⟨⟨acts,s,l,hfed,hrun,hquiet,hf⟩,hall⟩ :=
    frames_reach_overlays objects noText SosEnvelope.event (some 1) rejectedFirst _ _
      rejectedFirst_serves rfl [plainAgain,plainAgain] (by simpa using plainAgain_ready) 1024
  exact ⟨acts,s,l,hfed,hrun,(hall acts s l hfed hrun).2 hquiet hf⟩

end RlStatsApi.FramedDelivery
