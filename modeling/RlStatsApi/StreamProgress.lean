import RlStatsApi.StreamRuns

/-!
# Progress of the event stream

A message of the wrong shape is removed from the buffer before its error is
returned. A syntax error is not: the buffer stays, and the stream returns the
same error for ever. The stream ends exactly when no call reaches a buffer
that is a syntax error.
-/

set_option autoImplicit false

namespace RlStatsApi.StreamProgress
open RlStatsApi.JsonValue RlStatsApi.Error RlStatsApi.EventParsing RlStatsApi.StreamFraming
open RlStatsApi.StreamClient RlStatsApi.StreamRuns RlStatsApi.TextReader

variable (D : Deserializer Json) (read : Reader)

/-- One step of `into_event_stream`: an item and the client, or the end. -/
def streamStep (c : Client) : Option (Outcome StatsEvent × Client) :=
  match c.nextEvent D read with
  | (.ready (.ok (some event)),c') => some (.ok event,c')
  | (.ready (.ok none),_) => none
  | (.ready (.error e),c') => some (.error e,c')
  | (.dropped,_) => none

/-- The first items of the event stream, fewer when it ends before. -/
def streamItems : ℕ → Client → List (Outcome StatsEvent)
  | 0, _ => []
  | n+1, c =>
    match streamStep D read c with
    | none => []
    | some (item,c') => item::streamItems n c'

def StreamEnds (c : Client) : Prop := ∃ n, (streamItems D read n c).length < n

/-- The clients before the steps of the stream. -/
inductive Reached (c : Client) : Client → Prop
  | start : Reached c c
  | step (c1 c2 : Client) (item : Outcome StatsEvent) (h : Reached c c1)
      (hs : streamStep D read c1 = some (item,c2)) : Reached c c2

inductive Look where
  | value
  | waits
  | broken
  deriving DecidableEq

/-- What the deserializer makes of a buffer without its leading blanks. -/
def look (b : Bytes) : Look :=
  if strip b = [] then .waits
  else
    match D.next (strip b) with
    | .value _ _ => .value
    | .eof => .waits
    | .malformed => .broken
    | .finished => .waits

/-- A call parses a buffer that is a syntax error. -/
def meetsSyntaxError (b : Bytes) : List Read → Bool
  | [] => look D b = .broken
  | r::reader =>
    match look D b, r with
    | .broken, _ => true
    | .waits, .chunk x xs => meetsSyntaxError (strip b++x::xs) reader
    | _, _ => false

theorem tryParse_look (b : Bytes) :
    (look D b = .value ∧ ∃ v b' removed, removed ≠ [] ∧ b = removed++b' ∧
      tryParseEventFromBuffer D read b = (delivered read v,b')) ∨
    (look D b = .waits ∧ tryParseEventFromBuffer D read b = (.ok none,strip b) ∧
      tryParseEventFromBuffer D read (strip b) = (.ok none,strip b)) ∨
    (look D b = .broken ∧ tryParseEventFromBuffer D read b = (final .broken,strip b) ∧
      tryParseEventFromBuffer D read (strip b) = (final .broken,strip b)) := by
  obtain ⟨blank,hblank⟩ : strip b <:+ b := List.dropWhile_suffix _
  by_cases hb : strip b = []
  · right
    left
    have hp := tryParse_empty D read b hb
    rw [hb]
    exact ⟨by simp [look, hb],hp,rfl⟩
  · cases hn : D.next (strip b) with
    | value v n =>
      left
      have hoff := D.offset _ v n hn
      have hcut : blank++(strip b).take n ++ (strip b).drop n = b := by
        rw [List.append_assoc, List.take_append_drop, hblank]
      have hne : (strip b).take n ≠ [] := by
        intro he
        have := congrArg List.length he
        simp only [List.length_take, List.length_nil] at this
        omega
      refine ⟨by simp [look, hb, hn],v,_,blank++(strip b).take n,by simp [hne],hcut.symm,?_⟩
      exact tryParse_value D read b v n hb hn
    | malformed =>
      right
      right
      have hp := tryParse_malformed D read b hb hn
      exact ⟨by simp [look, hb, hn],hp,(tryParse_strip D read b).trans hp⟩
    | eof =>
      right
      left
      have hp := tryParse_waits D read b (.inl hn)
      exact ⟨by simp [look, hb, hn],hp,(tryParse_strip D read b).trans hp⟩
    | finished =>
      right
      left
      have hp := tryParse_waits D read b (.inr hn)
      exact ⟨by simp [look, hb, hn],hp,(tryParse_strip D read b).trans hp⟩

/-- The peer sends its bytes and closes: no read fails. -/
def Sent (reader : List Read) : Prop := ∀ r ∈ reader, ∃ x xs, r = .chunk x xs

theorem progress_found (reader : List Read) (b b' removed : Bytes) (v : Json) (hr : Sent reader)
    (hl : look D b = .value) (hne : removed ≠ []) (hb : b = removed++b')
    (hp : tryParseEventFromBuffer D read b = (delivered read v,b')) :
    meetsSyntaxError D b reader = false ∧ ∃ v c' removed, removed ≠ [] ∧
      b++readBytes reader = removed++c'.bytes ∧ Sent c'.reader ∧
      nextEvent D read b reader = (.ready (delivered read v),c') := by
  constructor
  · cases reader <;> simp [meetsSyntaxError, hl]
  · refine ⟨v,⟨b',reader⟩,removed,hne,?_,hr,?_⟩
    · simp [Client.bytes, hb]
    · exact nextEvent_result D read _ _ _ _ hp (delivered_ne_none read v)

theorem progress_broken (reader : List Read) (b : Bytes) (hr : Sent reader)
    (hl : look D b = .broken) (hp : tryParseEventFromBuffer D read b = (final .broken,strip b))
    (hp' : tryParseEventFromBuffer D read (strip b) = (final .broken,strip b)) :
    meetsSyntaxError D b reader = true ∧
      ∃ c', nextEvent D read b reader = (.ready (final .broken),c') ∧ Sent c'.reader ∧
        c'.nextEvent D read = (.ready (final .broken),c') := by
  constructor
  · cases reader <;> simp [meetsSyntaxError, hl]
  · exact ⟨⟨strip b,reader⟩,nextEvent_result D read _ _ _ _ hp final_broken_ne,hr,
      nextEvent_result D read _ _ _ _ hp' final_broken_ne⟩

/-- One call of the stream ends it, removes bytes, or meets a syntax error
and leaves a client that meets it again. -/
theorem nextEvent_progress (reader : List Read) (b : Bytes) (hr : Sent reader) :
    (meetsSyntaxError D b reader = false ∧
      ∃ c', nextEvent D read b reader = (.ready (.ok none),c')) ∨
    (meetsSyntaxError D b reader = false ∧ ∃ v c' removed, removed ≠ [] ∧
      b++readBytes reader = removed++c'.bytes ∧ Sent c'.reader ∧
      nextEvent D read b reader = (.ready (delivered read v),c')) ∨
    (meetsSyntaxError D b reader = true ∧
      ∃ c', nextEvent D read b reader = (.ready (final .broken),c') ∧ Sent c'.reader ∧
        c'.nextEvent D read = (.ready (final .broken),c')) := by
  induction reader generalizing b with
  | nil =>
    rcases tryParse_look D read b with ⟨hl,v,b',removed,hne,hb,hp⟩ | ⟨hl,hp,hp'⟩ | ⟨hl,hp,hp'⟩
    · exact .inr (.inl (progress_found D read _ b b' removed v hr hl hne hb hp))
    · left
      exact ⟨by simp [meetsSyntaxError, hl],_,nextEvent_closed D read _ _ hp hp'⟩
    · exact .inr (.inr (progress_broken D read _ b hr hl hp hp'))
  | cons r reader ih =>
    obtain ⟨x,xs,rfl⟩ := hr r (by simp)
    have hr' : Sent reader := fun r hmem => hr r (by simp [hmem])
    rcases tryParse_look D read b with ⟨hl,v,b',removed,hne,hb,hp⟩ | ⟨hl,hp,hp'⟩ | ⟨hl,hp,hp'⟩
    · exact .inr (.inl (progress_found D read _ b b' removed v hr hl hne hb hp))
    · obtain ⟨blank,hblank⟩ : strip b <:+ b := List.dropWhile_suffix _
      have hm : meetsSyntaxError D b (.chunk x xs::reader) =
          meetsSyntaxError D (strip b++x::xs) reader := by
        simp [meetsSyntaxError, hl]
      rw [hm, nextEvent_chunk D read b _ x xs reader hp]
      rcases ih (strip b++x::xs) hr' with h | ⟨hm,v,c',removed,hne,hbytes,hs,hn⟩ | h
      · exact .inl h
      · right
        left
        refine ⟨hm,v,c',blank++removed,by simp [hne],?_,hs,hn⟩
        calc
          b++readBytes (.chunk x xs::reader)
              = (blank++strip b)++readBytes (.chunk x xs::reader) := by rw [hblank]
          _ = blank++(strip b++x::xs++readBytes reader) := by simp [readBytes]
          _ = blank++removed++c'.bytes := by rw [hbytes, List.append_assoc]
      · exact .inr (.inr h)
    · exact .inr (.inr (progress_broken D read _ b hr hl hp hp'))

/-! ## Steps of the stream -/

def meetsAt (c : Client) : Bool := meetsSyntaxError D c.readBuffer c.reader

theorem streamStep_none (c : Client) (c' : Client)
    (h : c.nextEvent D read = (.ready (.ok none),c')) : streamStep D read c = none := by
  rw [streamStep, h]

theorem streamStep_delivered (c c' : Client) (v : Json)
    (h : c.nextEvent D read = (.ready (delivered read v),c')) :
    streamStep D read c = some (parseStatsEventValue read v.1,c') := by
  rw [streamStep, h]
  unfold delivered
  cases parseStatsEventValue read v.1 <;> rfl

theorem streamStep_broken (c c' : Client)
    (h : c.nextEvent D read = (.ready (final .broken),c')) :
    streamStep D read c = some (.error (.json .malformed),c') := by
  rw [streamStep, h]
  rfl

/-- A step that meets no syntax error ends the stream or removes bytes. -/
theorem streamStep_removes (c : Client) (hr : Sent c.reader) (hm : meetsAt D c = false) :
    streamStep D read c = none ∨
    ∃ item c' removed, streamStep D read c = some (item,c') ∧ removed ≠ [] ∧
      c.bytes = removed++c'.bytes ∧ Sent c'.reader := by
  rcases nextEvent_progress D read c.reader c.readBuffer hr with
    ⟨_,c',hn⟩ | ⟨_,v,c',removed,hne,hb,hs,hn⟩ | ⟨hm',_⟩
  · exact .inl (streamStep_none D read c c' hn)
  · exact .inr ⟨_,c',removed,streamStep_delivered D read c c' v hn,hne,hb,hs⟩
  · exact absurd (hm.symm.trans hm') (by decide)

/-- A step that meets a syntax error returns it, and so does every later one. -/
theorem streamStep_stuck (c : Client) (hr : Sent c.reader) (hm : meetsAt D c = true) :
    ∃ c', streamStep D read c = some (.error (.json .malformed),c') ∧ Sent c'.reader ∧
      streamStep D read c' = some (.error (.json .malformed),c') := by
  rcases nextEvent_progress D read c.reader c.readBuffer hr with
    ⟨hm',_⟩ | ⟨hm',_⟩ | ⟨_,c',hn,hs,hn'⟩
  · exact absurd (hm.symm.trans hm') (by decide)
  · exact absurd (hm.symm.trans hm') (by decide)
  · exact ⟨c',streamStep_broken D read c c' hn,hs,streamStep_broken D read c' c' hn'⟩

theorem streamStep_sent (c c' : Client) (item : Outcome StatsEvent) (hr : Sent c.reader)
    (h : streamStep D read c = some (item,c')) : Sent c'.reader := by
  cases hm : meetsAt D c with
  | false =>
    rcases streamStep_removes D read c hr hm with hn | ⟨_,_,_,hs,_,_,hr'⟩
    · rw [hn] at h
      cases h
    · rw [hs] at h
      cases h
      exact hr'
  | true =>
    obtain ⟨_,hs,hr',_⟩ := streamStep_stuck D read c hr hm
    rw [hs] at h
    cases h
    exact hr'

theorem reached_sent (c c' : Client) (hr : Sent c.reader) (h : Reached D read c c') :
    Sent c'.reader := by
  induction h with
  | start => exact hr
  | step c1 c2 item _ hs ih => exact streamStep_sent D read c1 c2 item ih hs

theorem streamItems_step (c c' : Client) (item : Outcome StatsEvent)
    (h : streamStep D read c = some (item,c')) (n : ℕ) :
    streamItems D read (n+1) c = item::streamItems D read n c' := by
  rw [streamItems, h]

theorem streamEnds_step (c c' : Client) (item : Outcome StatsEvent)
    (h : streamStep D read c = some (item,c')) :
    StreamEnds D read c ↔ StreamEnds D read c' := by
  constructor
  · rintro ⟨n,hn⟩
    cases n with
    | zero => simp at hn
    | succ n =>
      rw [streamItems_step D read c c' item h, List.length_cons] at hn
      exact ⟨n,by omega⟩
  · rintro ⟨n,hn⟩
    exact ⟨n+1,by rw [streamItems_step D read c c' item h, List.length_cons]; omega⟩

theorem streamItems_stuck (c : Client) (item : Outcome StatsEvent)
    (h : streamStep D read c = some (item,c)) (n : ℕ) :
    (streamItems D read n c).length = n := by
  induction n with
  | zero => rfl
  | succ n ih => rw [streamItems_step D read c c item h, List.length_cons, ih]

theorem reached_ends (c c' : Client) (h : Reached D read c c') (he : StreamEnds D read c) :
    StreamEnds D read c' := by
  induction h with
  | start => exact he
  | step c1 c2 item _ hs ih => exact (streamEnds_step D read c1 c2 item hs).mp ih

theorem reached_trans (c c1 c2 : Client) (item : Outcome StatsEvent)
    (hs : streamStep D read c = some (item,c1)) (h : Reached D read c1 c2) :
    Reached D read c c2 := by
  induction h with
  | start => exact .step c c1 item .start hs
  | step c3 c4 item' _ hs' ih => exact .step c3 c4 item' ih hs'

theorem stream_ends_of_no_syntax_error (c : Client) (hr : Sent c.reader)
    (h : ∀ c', Reached D read c c' → meetsAt D c' = false) : StreamEnds D read c := by
  generalize hm : c.bytes.length = m
  induction m using Nat.strong_induction_on generalizing c with
  | _ m ih =>
    rcases streamStep_removes D read c hr (h c .start) with
      hn | ⟨item,c',removed,hs,hne,hb,hr'⟩
    · exact ⟨1,by simp [streamItems, hn]⟩
    · rw [streamEnds_step D read c c' item hs]
      have hlen := congrArg List.length hb
      have hpos := List.length_pos_iff.mpr hne
      rw [List.length_append] at hlen
      exact ih _ (by omega) c' hr' (fun c2 h2 => h c2 (reached_trans D read c c' c2 item hs h2)) rfl

/-- The stream over the bytes that a peer sends ends exactly when no call
meets a buffer that is a syntax error; a call that meets none and returns an
error has removed at least one byte. -/
theorem stream_ends_iff (c : Client) (hr : Sent c.reader) :
    (StreamEnds D read c ↔ ∀ c', Reached D read c c' → meetsAt D c' = false) ∧
    ∀ c', Sent c'.reader → meetsAt D c' = false → ∀ e c2,
      streamStep D read c' = some (.error e,c2) →
        ∃ removed, removed ≠ [] ∧ c'.bytes = removed++c2.bytes := by
  constructor
  · constructor
    · intro he c' hc
      cases hm : meetsAt D c' with
      | false => rfl
      | true =>
        obtain ⟨c2,hs,_,hs2⟩ := streamStep_stuck D read c' (reached_sent D read c c' hr hc) hm
        have he2 := (streamEnds_step D read c' c2 _ hs).mp (reached_ends D read c c' hc he)
        obtain ⟨n,hn⟩ := he2
        rw [streamItems_stuck D read c2 _ hs2 n] at hn
        omega
    · exact stream_ends_of_no_syntax_error D read c hr
  · intro c' hr' hm e c2 hs
    rcases streamStep_removes D read c' hr' hm with hn | ⟨_,_,removed,hs',hne,hb,_⟩
    · rw [hn] at hs
      cases hs
    · rw [hs'] at hs
      cases hs
      exact ⟨removed,hne,hb⟩

def emptyObjects : Client := .connect [.chunk 123 [125,10,123,125]]

theorem empty_objects_meet_no_error : StreamEnds braces noText emptyObjects ∧
    ∀ c', Reached braces noText emptyObjects c' → meetsAt braces c' = false := by
  have he : StreamEnds braces noText emptyObjects := ⟨3,by decide⟩
  have hs : Sent emptyObjects.reader := by simp [emptyObjects, Client.connect, Sent]
  exact ⟨he,(stream_ends_iff braces noText emptyObjects hs).1.mp he⟩

/-- One byte that is no JSON: the stream returns its error for ever. -/
theorem garbage_never_ends : ¬ StreamEnds braces noText (.connect [.chunk 120 []]) := by
  have hs : streamStep braces noText (.connect [.chunk 120 []]) =
      some (.error (.json .malformed),⟨[120],[]⟩) := rfl
  have hs' : streamStep braces noText ⟨[120],[]⟩ =
      some (.error (.json .malformed),⟨[120],[]⟩) := rfl
  rw [streamEnds_step braces noText _ _ _ hs]
  rintro ⟨n,hn⟩
  rw [streamItems_stuck braces noText _ _ hs' n] at hn
  omega

end RlStatsApi.StreamProgress
