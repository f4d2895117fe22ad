import RlStatsApi.StreamClient

/-!
# Runs of the stream client

On a framed stream one call returns the next value's result, or is dropped
and leaves the stream as it was, or returns the stream's end. A run therefore
returns the same results however the stream is cut into reads and however
often a call is dropped. The event stream made of these calls ends unless a
buffer is reached that is a syntax error: such a buffer is never shortened.
-/

set_option autoImplicit false

namespace RlStatsApi.StreamRuns
open RlStatsApi.JsonValue RlStatsApi.Error RlStatsApi.EventParsing RlStatsApi.StreamFraming
open RlStatsApi.StreamClient RlStatsApi.TextReader

variable (D : Deserializer Json) (read : Reader)

/-- The result of one value, and the result at the end of a stream. -/
def delivered (v : Json) : Outcome (Option StatsEvent) := some <$> parseStatsEventValue read v.1

def final : Ending → Outcome (Option StatsEvent)
  | .closed => .ok none
  | .broken => .error (.json .malformed)

theorem delivered_ne_none (v : Json) : delivered read v ≠ .ok none := by
  unfold delivered
  cases parseStatsEventValue read v.1 <;> exact fun h => by cases h

theorem tryParse_strip (b : Bytes) :
    tryParseEventFromBuffer D read (strip b) = tryParseEventFromBuffer D read b := by
  have hs : discardLeadingWhitespace (strip b) = discardLeadingWhitespace b := strip_strip b
  rw [tryParseEventFromBuffer, hs]
  rfl

theorem tryParse_empty (b : Bytes) (h : strip b = []) :
    tryParseEventFromBuffer D read b = (.ok none,[]) := by
  have hs : discardLeadingWhitespace b = [] := h
  simp [tryParseEventFromBuffer, hs]

theorem tryParse_value (b : Bytes) (v : Json) (n : ℕ) (hb : strip b ≠ [])
    (h : D.next (strip b) = .value v n) :
    tryParseEventFromBuffer D read b = (delivered read v,(strip b).drop n) := by
  have hb' : discardLeadingWhitespace b ≠ [] := hb
  have h' : D.next (discardLeadingWhitespace b) = .value v n := h
  simp only [tryParseEventFromBuffer, if_neg hb', h']
  rfl

theorem tryParse_waits (b : Bytes) (h : D.next (strip b) = .eof ∨ D.next (strip b) = .finished) :
    tryParseEventFromBuffer D read b = (.ok none,strip b) := by
  have h' : D.next (discardLeadingWhitespace b) = .eof ∨
    D.next (discardLeadingWhitespace b) = .finished := h
  unfold tryParseEventFromBuffer
  rcases h' with h' | h' <;> simp only [h', ite_self] <;> rfl

theorem tryParse_malformed (b : Bytes) (hb : strip b ≠ []) (h : D.next (strip b) = .malformed) :
    tryParseEventFromBuffer D read b = (.error (.json .malformed),strip b) := by
  have hb' : discardLeadingWhitespace b ≠ [] := hb
  have h' : D.next (discardLeadingWhitespace b) = .malformed := h
  simp only [tryParseEventFromBuffer, if_neg hb', h']
  rfl

/-- Parsing the received part `b` of a stream delivers its next value, waits,
or meets its error; the buffer left is a received part of what remains. -/
theorem tryParse_stream (b r : Bytes) (vs : List Json) (e : Ending)
    (h : Stream D (b++r) vs e) :
    (∃ v vs' b', vs = v::vs' ∧ tryParseEventFromBuffer D read b = (delivered read v,b') ∧
      Stream D (b'++r) vs' e) ∨
    (∃ b', tryParseEventFromBuffer D read b = (.ok none,b') ∧
      tryParseEventFromBuffer D read b' = (.ok none,b') ∧ Stream D (b'++r) vs e ∧
      (r = [] → vs = [] ∧ e = .closed)) ∨
    (∃ b', tryParseEventFromBuffer D read b = (final .broken,b') ∧
      tryParseEventFromBuffer D read b' = (final .broken,b') ∧ vs = [] ∧ e = .broken) := by
  have hs := stream_strip D b r vs e h
  by_cases hb : strip b = []
  · right
    left
    rw [hb] at hs
    refine ⟨[],tryParse_empty D read b hb,rfl,hs,?_⟩
    rintro rfl
    exact stream_nil D vs e hs
  · rcases stream_next D _ r vs e (strip_starts b hb) hs with
      ⟨t,b',v,vs',hbt,rfl,hn,hrest⟩ | ⟨hn,hend⟩ | ⟨hn,rfl,rfl⟩
    · left
      refine ⟨v,vs',b',rfl,?_,hrest⟩
      rw [tryParse_value D read b v _ hb hn, hbt, List.drop_left]
    · right
      left
      have hp := tryParse_waits D read b (.inl hn)
      exact ⟨strip b,hp,(tryParse_strip D read b).trans hp,hs,hend⟩
    · right
      right
      have hp := tryParse_malformed D read b hb hn
      exact ⟨strip b,hp,(tryParse_strip D read b).trans hp,rfl,rfl⟩

/-! ## One call -/

theorem nextEvent_result (b b' : Bytes) (x : Outcome (Option StatsEvent)) (reader : List Read)
    (h : tryParseEventFromBuffer D read b = (x,b')) (hx : x ≠ .ok none) :
    nextEvent D read b reader = (.ready x,⟨b',reader⟩) := by
  cases reader with
  | nil =>
    rw [nextEvent, h]
    split
    · next he => exact absurd (congrArg Prod.fst he) hx
    · next he => cases he; rfl
  | cons r reader =>
    rw [nextEvent, h]
    split
    · next he => exact absurd (congrArg Prod.fst he) hx
    · next he => cases he; rfl

theorem nextEvent_closed (b b' : Bytes) (h : tryParseEventFromBuffer D read b = (.ok none,b'))
    (h' : tryParseEventFromBuffer D read b' = (.ok none,b')) :
    nextEvent D read b [] = (.ready (.ok none),⟨b',[]⟩) := by
  rw [nextEvent, h]
  simp only [h']

theorem nextEvent_chunk (b b' : Bytes) (x : UInt8) (xs : Bytes) (reader : List Read)
    (h : tryParseEventFromBuffer D read b = (.ok none,b')) :
    nextEvent D read b (.chunk x xs::reader) = nextEvent D read (b'++x::xs) reader := by
  rw [nextEvent, h]

theorem nextEvent_dropped (b b' : Bytes) (reader : List Read)
    (h : tryParseEventFromBuffer D read b = (.ok none,b')) :
    nextEvent D read b (.dropped::reader) = (.dropped,⟨b',reader⟩) := by
  rw [nextEvent, h]

def drops : List Read → ℕ
  | [] => 0
  | .dropped::reader => drops reader+1
  | _::reader => drops reader

/-- A call is dropped only at a read. -/
theorem nextEvent_ready (reader : List Read) (buffer : Bytes) (h : drops reader = 0) :
    ∃ x c', nextEvent D read buffer reader = (.ready x,c') ∧ drops c'.reader = 0 := by
  induction reader generalizing buffer with
  | nil =>
    rw [nextEvent]
    split <;> exact ⟨_,_,rfl,rfl⟩
  | cons r reader ih =>
    have hrest : r = .dropped ∨ drops (r::reader) = drops reader := by
      cases r with
      | dropped => exact .inl rfl
      | _ => exact .inr rfl
    rcases hrest with rfl | hrest
    · cases h
    · rw [nextEvent]
      split
      · cases r with
        | chunk b bs => exact ih _ h
        | dropped => cases h
        | failed => exact ⟨_,_,rfl,h⟩
      · exact ⟨_,_,rfl,h⟩

/-- A connection that still has a framed stream to deliver, without failures. -/
structure Serves (c : Client) (vs : List Json) (e : Ending) : Prop where
  quiet : ∀ r ∈ c.reader, r ≠ .failed
  stream : Stream D c.bytes vs e

theorem final_broken_ne : final .broken ≠ .ok none := fun h => by cases h

/-- One call: a value, a drop, or the end, which stays. -/
theorem nextEvent_stream (reader : List Read) (buffer : Bytes) (vs : List Json) (e : Ending)
    (h : Serves D ⟨buffer,reader⟩ vs e) :
    (∃ v vs' c', vs = v::vs' ∧ nextEvent D read buffer reader = (.ready (delivered read v),c') ∧
      Serves D c' vs' e ∧ drops c'.reader ≤ drops reader) ∨
    (∃ c', nextEvent D read buffer reader = (.dropped,c') ∧ Serves D c' vs e ∧
      drops c'.reader < drops reader) ∨
    (∃ c', vs = [] ∧ nextEvent D read buffer reader = (.ready (final e),c') ∧
      c'.nextEvent D read = (.ready (final e),c')) := by
  induction reader generalizing buffer with
  | nil =>
    rcases tryParse_stream D read buffer _ vs e h.stream with
      ⟨v,vs',b',rfl,hp,hs⟩ | ⟨b',hp,hp',hs,hend⟩ | ⟨b',hp,hp',rfl,rfl⟩
    · left
      exact ⟨v,vs',⟨b',[]⟩,rfl,nextEvent_result D read _ _ _ _ hp (delivered_ne_none read v),
        ⟨by simp,hs⟩,le_rfl⟩
    · right
      right
      obtain ⟨rfl,rfl⟩ := hend rfl
      exact ⟨⟨b',[]⟩,rfl,nextEvent_closed D read _ _ hp hp',nextEvent_closed D read _ _ hp' hp'⟩
    · right
      right
      exact ⟨⟨b',[]⟩,rfl,nextEvent_result D read _ _ _ _ hp final_broken_ne,
        nextEvent_result D read _ _ _ _ hp' final_broken_ne⟩
  | cons r reader ih =>
    have hq : ∀ r ∈ reader, r ≠ .failed := fun r' hr => h.quiet r' (by simp [hr])
    rcases tryParse_stream D read buffer _ vs e h.stream with
      ⟨v,vs',b',rfl,hp,hs⟩ | ⟨b',hp,hp',hs,_⟩ | ⟨b',hp,hp',rfl,rfl⟩
    · left
      exact ⟨v,vs',⟨b',r::reader⟩,rfl,
        nextEvent_result D read _ _ _ _ hp (delivered_ne_none read v),⟨h.quiet,hs⟩,le_rfl⟩
    · cases r with
      | chunk x xs =>
        have hnext : Serves D ⟨b'++x::xs,reader⟩ vs e :=
          ⟨hq,by simpa [Client.bytes, readBytes] using hs⟩
        rw [nextEvent_chunk D read buffer b' x xs reader hp]
        exact ih _ hnext
      | dropped =>
        right
        left
        exact ⟨⟨b',reader⟩,nextEvent_dropped D read _ _ _ hp,⟨hq,hs⟩,Nat.lt_succ_self _⟩
      | failed => exact absurd rfl (h.quiet .failed (by simp))
    · right
      right
      exact ⟨⟨b',r::reader⟩,rfl,nextEvent_result D read _ _ _ _ hp final_broken_ne,
        nextEvent_result D read _ _ _ _ hp' final_broken_ne⟩

/-! ## Runs -/

def after : List Op → Client → Client
  | [], c => c
  | .next::ops, c => after ops (c.nextEvent D read).2
  | .reconnect r::ops, c => after ops (c.reconnect r).2

theorem run_append (ops rest : List Op) (c : Client) :
    run D read (ops++rest) c = run D read ops c++run D read rest (after D read ops c) := by
  induction ops generalizing c with
  | nil => rfl
  | cons op ops ih =>
    cases op with
    | reconnect r => exact ih _
    | next =>
      simp only [List.cons_append, run, after]
      split
      · next hc => rw [ih, hc]; rfl
      · next hc => rw [ih, hc]

theorem calls_ready (n : ℕ) (c c' : Client) (x : Outcome (Option StatsEvent))
    (h : c.nextEvent D read = (.ready x,c')) :
    calls D read (n+1) c = x::calls D read n c' := by
  rw [calls, List.replicate_succ, run, h]
  rfl

theorem calls_dropped (n : ℕ) (c c' : Client) (h : c.nextEvent D read = (.dropped,c')) :
    calls D read (n+1) c = calls D read n c' := by
  rw [calls, List.replicate_succ, run, h]
  rfl

theorem calls_ended (n : ℕ) (c : Client) (x : Outcome (Option StatsEvent))
    (h : c.nextEvent D read = (.ready x,c)) : calls D read n c = List.replicate n x := by
  induction n with
  | zero => rfl
  | succ n ih => rw [calls_ready D read n c c x h, ih, List.replicate_succ]

/-- After enough calls every value of the stream has been returned once, in
order, and each further call returns the stream's end. -/
theorem calls_stream (c : Client) (vs : List Json) (e : Ending) (h : Serves D c vs e) :
    ∃ k, ∀ n, calls D read (k+n) c = vs.map (delivered read)++List.replicate n (final e) := by
  generalize hm : vs.length+drops c.reader = m
  induction m using Nat.strong_induction_on generalizing c vs with
  | _ m ih =>
    rcases nextEvent_stream D read c.reader c.readBuffer vs e h with
      ⟨v,vs',c',rfl,hc,hs,hd⟩ | ⟨c',hc,hs,hd⟩ | ⟨c',rfl,hc,hc'⟩
    · have hlt : vs'.length+drops c'.reader < m := by
        simp only [List.length_cons] at hm
        omega
      obtain ⟨k,hk⟩ := ih _ hlt c' vs' hs rfl
      exact ⟨k+1,fun n => by rw [Nat.add_right_comm, calls_ready D read _ c c' _ hc, hk]; rfl⟩
    · obtain ⟨k,hk⟩ := ih _ (by omega) c' vs hs rfl
      exact ⟨k+1,fun n => by rw [Nat.add_right_comm, calls_dropped D read _ c c' hc, hk]⟩
    · refine ⟨0,fun n => ?_⟩
      cases n with
      | zero => rfl
      | succ n =>
        rw [Nat.zero_add, calls_ready D read n c c' _ hc, calls_ended D read n c' _ hc']
        rfl

/-- The results of a framed stream do not depend on its reads or on dropped
calls. After a reconnection they depend on the new connection only, and a
reconnection that fails or is cancelled changes nothing. -/
theorem framing_independent (s : Bytes) (vs : List Json) (e : Ending) (h : Stream D s vs e) :
    (∀ c : Client, (∀ r ∈ c.reader, r ≠ .failed) → c.bytes = s → ∃ k, ∀ n,
      calls D read (k+n) c = vs.map (delivered read)++List.replicate n (final e)) ∧
    (∀ before c reader, (∀ r ∈ reader, r ≠ .failed) → readBytes reader = s → ∃ k, ∀ n,
      run D read (before++.reconnect (.connected reader)::List.replicate (k+n) .next) c =
        run D read before c++(vs.map (delivered read)++List.replicate n (final e))) ∧
    (∀ before after reader c,
      run D read (before++.reconnect (.connected reader)::after) c =
        run D read before c++run D read after (.connect reader)) ∧
    ∀ before after r c, r = .failed ∨ r = .cancelled →
      run D read (before++.reconnect r::after) c = run D read (before++after) c := by
  have hconn : ∀ before after reader c,
      run D read (before++.reconnect (.connected reader)::after) c =
        run D read before c++run D read after (.connect reader) := by
    intro before after reader c
    rw [run_append]
    rfl
  refine ⟨?_,?_,hconn,?_⟩
  · rintro c hq rfl
    exact calls_stream D read c vs e ⟨hq,h⟩
  · rintro before c reader hq rfl
    obtain ⟨k,hk⟩ := calls_stream D read (.connect reader) vs e ⟨hq,h⟩
    exact ⟨k,fun n => by rw [hconn, ← hk n]; rfl⟩
  · rintro before after r c (rfl | rfl)
    · rw [run_append, run_append]
      rfl
    · rw [run_append, run_append]
      rfl

/-- A deserializer that knows the text of the empty object only. -/
def braces : Deserializer Json where
  next
    | [] => .finished
    | [123] => .eof
    | 123::125::_ => .value ⟨.object [],.object _ .nil (by simp)⟩ 2
    | _ => .malformed
  offset := by
    intro b v n h
    split at h <;> cases h
    exact ⟨by decide,by simp⟩

theorem braces_framed : Framed braces [123,125] ⟨.object [],.object _ .nil (by simp)⟩ where
  starts := ⟨123,[125],rfl,rfl⟩
  complete _ := rfl
  waits := by
    rintro p hp ⟨q,hq⟩ hne
    match p with
    | [] => exact absurd rfl hp
    | [x] => cases hq; rfl
    | [x,y] => simp at hq; simp [hq] at hne
    | x::y::z::p => simp at hq

def cutBraces : Client := ⟨[],[.chunk 32 [123],.dropped,.chunk 125 [123],.dropped]⟩

theorem cut_braces_framed : ∃ k, ∀ n, calls braces noText (k+n) cutBraces =
    [.error (.json .data)]++List.replicate n (.ok none) :=
  (framing_independent braces noText [32,123,125,123] _ .closed
    (.blank _ _ _ _ rfl (.text [123,125] [123] _ _ _ braces_framed
      (.tail _ .closed fun _ => ⟨⟨123,[],rfl,rfl⟩,by
        rintro p hp ⟨q,hq⟩
        match p with
        | [] => exact absurd rfl hp
        | [x] => cases hq; rfl
        | x::y::p => simp at hq⟩)))).1 cutBraces (by simp [cutBraces]) rfl

/-- The numbers 1 and 12, of which the second may not go on with a letter. -/
def twelve : Deserializer Json where
  next
    | [] => .finished
    | [49] => .value ⟨.number (.posInt 1 (by decide)),.number _⟩ 1
    | [49,50] => .value ⟨.number (.posInt 12 (by decide)),.number _⟩ 2
    | _ => .malformed
  offset := by
    intro b v n h
    split at h <;> cases h <;> decide

/-- A malformed tail that begins with a number counts as a value when it is
cut after the number: `12x` yields one result more as `12` and `x`. -/
theorem cut_number_counts :
    calls twelve noText 2 (.connect [.chunk 49 [50,120]]) =
      [.error (.json .malformed),.error (.json .malformed)] ∧
    calls twelve noText 2 (.connect [.chunk 49 [50],.chunk 120 []]) =
      [.error (.json .data),.error (.json .malformed)] := ⟨rfl,rfl⟩

end RlStatsApi.StreamRuns
