import RlStatsApi.EnvelopeReading

/-!
# Events parsed from texts and from values

A text's tree shows a member that is given twice; the value of the text
keeps the last one. The two parsers therefore see the same envelope exactly
where no key of the envelope is repeated. The text parser refuses the other
objects. It does not read the members under other keys, and accepts some
texts that are no values for their sake.
-/

set_option autoImplicit false

namespace RlStatsApi.EventTexts
open RlStatsApi.JsonValue RlStatsApi.SortedAssoc RlStatsApi.Error RlStatsApi.EventParsing
open RlStatsApi.TextReader RlStatsApi.EnvelopeReading

/-! ## Members of a tree -/

def occurrences (m : Members) (k : String) : ℕ := (m.map Prod.fst).count k

theorem occurrences_cons (p : String × Value) (m : Members) (k : String) :
    occurrences (p::m) k = occurrences m k+(if p.1 = k then 1 else 0) := by
  simp [occurrences, List.count_cons]

theorem lookup_none_of_occurrences (m : Members) (k : String) (h : occurrences m k = 0) :
    m.lookup k = none :=
  lookup_none_of_not_key m k (List.count_eq_zero.mp h)

theorem given_none (m : Members) (a b : String) :
    given m a b = [] ↔ m.lookup a = none ∧ m.lookup b = none := by
  induction m with
  | nil => simp [given]
  | cons p m ih =>
    rw [lookup_entry, lookup_entry]
    by_cases ha : p.1 = a
    · simp [given_cons p m a b (.inl ha), ha]
    by_cases hb : p.1 = b
    · simp [given_cons p m a b (.inr hb), hb]
    · rw [given_other p m a b ha hb, ih, if_neg (Ne.symm ha), if_neg (Ne.symm hb)]

theorem given_length (m : Members) (a b : String) (hab : a ≠ b) :
    (given m a b).length = occurrences m a+occurrences m b := by
  induction m with
  | nil => rfl
  | cons p m ih =>
    rw [occurrences_cons, occurrences_cons]
    by_cases ha : p.1 = a
    · have hb : p.1 ≠ b := fun hb => hab (ha.symm.trans hb)
      rw [given_cons p m a b (.inl ha), List.length_cons, ih, if_pos ha, if_neg hb]
      omega
    by_cases hb : p.1 = b
    · rw [given_cons p m a b (.inr hb), List.length_cons, ih, if_neg ha, if_pos hb]
      omega
    · rw [given_other p m a b ha hb, ih, if_neg ha, if_neg hb, Nat.add_zero, Nat.add_zero]

theorem member_repeated (m : Members) (a b : String) (hab : a ≠ b)
    (h : 2 ≤ occurrences m a ∨ 2 ≤ occurrences m b) : member m a b = none := by
  have hl := given_length m a b hab
  unfold member
  split
  · next p hp =>
    rw [given, hp, List.length_singleton] at hl
    omega
  · rfl

/-- A name and its alias, of which only one may be given. -/
def either (x y : Option Value) : Option Value :=
  match x, y with
  | some v, none => some v
  | none, some v => some v
  | _, _ => none

theorem member_single (p : String × Value) (m : Members) (a b : String)
    (hp : p.1 = a ∨ p.1 = b) :
    member (p::m) a b = if m.lookup a = none ∧ m.lookup b = none then some p.2 else none := by
  have hf := given_cons p m a b hp
  rw [given] at hf
  rw [member, hf]
  by_cases hn : given m a b = []
  · rw [if_pos ((given_none m a b).mp hn), hn]
  · rw [if_neg (fun h => hn ((given_none m a b).mpr h))]
    obtain ⟨q,rest,hq⟩ := List.exists_cons_of_ne_nil hn
    rw [hq]

theorem member_lookup (m : Members) (a b : String) (hab : a ≠ b)
    (ha : occurrences m a ≤ 1) (hb : occurrences m b ≤ 1) :
    member m a b = either (m.lookup a) (m.lookup b) := by
  induction m with
  | nil => rfl
  | cons p m ih =>
    rw [occurrences_cons] at ha hb
    by_cases hpa : p.1 = a
    · rw [if_pos hpa] at ha
      have hn := lookup_none_of_occurrences m a (by omega)
      rw [member_single p m a b (.inl hpa), lookup_entry, lookup_entry, hn, hpa]
      cases m.lookup b <;> simp [either, hab.symm]
    by_cases hpb : p.1 = b
    · rw [if_pos hpb] at hb
      have hn := lookup_none_of_occurrences m b (by omega)
      rw [member_single p m a b (.inr hpb), lookup_entry, lookup_entry, hn, hpb]
      cases m.lookup a <;> simp [either, hab]
    · rw [lookup_entry, lookup_entry, if_neg (Ne.symm hpa), if_neg (Ne.symm hpb),
        ← ih (by omega) (by omega)]
      simp [member, hpa, hpb]

theorem collapseMembers_map (m : Members) :
    Value.collapseMembers m = m.map (fun p => (p.1,p.2.collapse)) := by
  induction m with
  | nil => rfl
  | cons p m ih => rw [Value.collapseMembers, ih, List.map_cons]

theorem lookup_map (f : Value → Value) (m : Members) (k : String) :
    (m.map (fun p => (p.1,f p.2))).lookup k = (m.lookup k).map f := by
  induction m with
  | nil => rfl
  | cons p m ih =>
    rw [List.map_cons, lookup_entry, lookup_entry, ih]
    split_ifs <;> rfl

/-- The members of the value of a tree's object. -/
def lastMembers (m : Members) : Members := insertAll (Value.collapseMembers m) []

theorem lastMembers_lookup (m : Members) (k : String) (h : occurrences m k ≤ 1) :
    (lastMembers m).lookup k = (m.lookup k).map Value.collapse := by
  have hk : (Value.collapseMembers m).map Prod.fst = m.map Prod.fst := by
    rw [collapseMembers_map, List.map_map]
    rfl
  rw [lastMembers, lookup_insertAll, lookup_reverse_of_count _ k (by rw [hk]; exact h),
    collapseMembers_map, lookup_map]
  simp

theorem lastMembers_once (m : Members) (k : String) : occurrences (lastMembers m) k ≤ 1 :=
  List.nodup_iff_count_le_one.mp
    (nodup_keys _ (sorted_insertAll (Value.collapseMembers m) [] List.Pairwise.nil)) k

theorem member_collapse (m : Members) (a b : String) (hab : a ≠ b)
    (ha : occurrences m a ≤ 1) (hb : occurrences m b ≤ 1) :
    member (lastMembers m) a b = (member m a b).map Value.collapse := by
  rw [member_lookup m a b hab ha hb,
    member_lookup _ a b hab (lastMembers_once m a) (lastMembers_once m b),
    lastMembers_lookup m a ha, lastMembers_lookup m b hb]
  cases m.lookup a <;> cases m.lookup b <;> rfl

/-! ## Envelopes -/

def envelopeKeys : List String := ["Event","event","Data","data"]

/-- An object that gives a key of the envelope more than once. -/
def Repeats : Value → Prop
  | .object m => ∃ k ∈ envelopeKeys, 2 ≤ occurrences m k
  | _ => False

theorem asStr_collapse (v : Value) : v.collapse.asStr = v.asStr := by
  cases v <;> rfl

theorem envelope_repeated (tree : Value) (h : Repeats tree) : EventEnvelope.de tree = none := by
  cases tree with
  | object m =>
    obtain ⟨k,hk,hc⟩ := h
    simp only [envelopeKeys, List.mem_cons, List.not_mem_nil, or_false] at hk
    have hm : member m "Event" "event" = none ∨ member m "Data" "data" = none := by
      rcases hk with rfl | rfl | rfl | rfl
      · exact .inl (member_repeated m _ _ (by decide) (.inl hc))
      · exact .inl (member_repeated m _ _ (by decide) (.inr hc))
      · exact .inr (member_repeated m _ _ (by decide) (.inl hc))
      · exact .inr (member_repeated m _ _ (by decide) (.inr hc))
    rcases hm with hm | hm
    · simp [EventEnvelope.de, hm]
    · simp [EventEnvelope.de, hm]
  | _ => exact absurd h id

theorem envelope_collapse (tree : Value) (h : ¬ Repeats tree) :
    EventEnvelope.de tree.collapse =
      (EventEnvelope.de tree).map (fun env => ⟨env.event,env.data.collapse⟩) := by
  cases tree with
  | object m =>
    have honce : ∀ k ∈ envelopeKeys, occurrences m k ≤ 1 := by
      intro k hk
      by_contra hc
      exact h ⟨k,hk,by omega⟩
    have he := member_collapse m "Event" "event" (by decide) (honce _ (by decide))
      (honce _ (by decide))
    have hd := member_collapse m "Data" "data" (by decide) (honce _ (by decide))
      (honce _ (by decide))
    rw [lastMembers] at he hd
    rw [Value.collapse, Value.ofMembers, EventEnvelope.de, he, hd, EventEnvelope.de]
    cases member m "Event" "event" with
    | none => rfl
    | some e =>
      cases hs : e.asStr with
      | none => simp [asStr_collapse, hs]
      | some name => cases member m "Data" "data" <;> simp [asStr_collapse, hs]
  | array xs =>
    rw [Value.collapse]
    cases xs with
    | nil => rfl
    | cons x xs =>
      cases xs with
      | nil => rfl
      | cons y xs =>
        cases xs with
        | nil => cases hs : x.asStr <;>
            simp [Value.collapseItems, EventEnvelope.de, asStr_collapse, hs]
        | cons z xs => rfl
  | _ => rfl

variable (read : Reader)

theorem collapsed_parsed (tree : Value) (hr : ¬ Repeats tree) (e : StatsEvent) :
    parseStatsEventValue read tree.collapse = .ok e ↔ ∃ env, EventEnvelope.de tree = some env ∧
      parseEventEnvelope read ⟨env.event,env.data.collapse⟩ = .ok e := by
  rw [parseStatsEventValue, envelope_collapse tree hr]
  cases EventEnvelope.de tree with
  | none =>
    constructor
    · intro h
      cases h
    · rintro ⟨_,⟨⟩,_⟩
  | some env =>
    constructor
    · exact fun h => ⟨env,rfl,h⟩
    · rintro ⟨_,⟨⟩,h⟩
      exact h

/-- Where no key of the envelope is repeated a text and its value are parsed
alike, and a text that repeats one is refused. In general a text is parsed as
the value of its known members, whether or not the others are values. -/
theorem text_and_value_agree (input : String) :
    (∀ tree, read input = .ok tree →
      (¬ Repeats tree → ∀ e, parseStatsEvent read input = .ok e ↔
        parseStatsEventValue read tree.collapse = .ok e) ∧
      (Repeats tree → ∀ e, parseStatsEvent read input ≠ .ok e)) ∧
    ∀ e, parseStatsEvent read input = .ok e ↔ ∃ tree, known (read.scan input) = .ok tree ∧
      ¬ Repeats tree ∧ parseStatsEventValue read tree.collapse = .ok e := by
  refine ⟨fun tree h => ⟨fun hr e => ?_,fun hr e hp => ?_⟩,fun e => ?_⟩
  · rw [parseStatsEvent_read read input tree h, collapsed_parsed read tree hr]
  · obtain ⟨env,hde,_⟩ := (parseStatsEvent_read read input tree h e).mp hp
    rw [envelope_repeated tree hr] at hde
    cases hde
  · rw [parseStatsEvent_iff]
    constructor
    · rintro ⟨tree,env,hk,hde,hp⟩
      have hr : ¬ Repeats tree := by
        intro hr
        rw [envelope_repeated tree hr] at hde
        cases hde
      exact ⟨tree,hk,hr,(collapsed_parsed read tree hr e).mpr ⟨env,hde,hp⟩⟩
    · rintro ⟨tree,hk,hr,hp⟩
      obtain ⟨env,hde,hp⟩ := (collapsed_parsed read tree hr e).mp hp
      exact ⟨tree,env,hk,hde,hp⟩

/-! ### Three texts -/

def aliasedText : String := "\x7b\"data\":1,\"Time\":0,\"Time\":1,\"Event\":\"Ping\"\x7d"

def aliasedTree : Value :=
  .object [("data",.ofI64 1),("Time",.ofI64 0),("Time",.ofI64 1),("Event",.string "Ping")]

def repeatedText : String := "\x7b\"Event\":\"Ping\",\"Event\":\"Pong\",\"Data\":1\x7d"

def repeatedTree : Value :=
  .object [("Event",.string "Ping"),("Event",.string "Pong"),("Data",.ofI64 1)]

def passedText : String := "\x7b\"Event\":\"Ping\",\"Data\":1,\"X\":1e999\x7d"

/-- The number is too large for a value, but well formed. -/
def passedDocument : Document :=
  .object [("Event",.held (.string "Ping")),("Data",.held (.ofI64 1)),
    ("X",.unheld .malformed .malformed none)] .closed

/-- A reader that knows the three texts. -/
def threeTexts : Reader where
  scan input :=
    if input = aliasedText then documentOf aliasedTree
    else if input = repeatedText then documentOf repeatedTree
    else if input = passedText then passedDocument
    else .single (.unheld .malformed .malformed (some .malformed)) trivial .closed

def pingEvent : StatsEvent := .unknown ⟨"Ping",.ofI64 1⟩

theorem aliased_agree :
    (parseStatsEvent threeTexts aliasedText = .ok pingEvent ↔
      parseStatsEventValue threeTexts aliasedTree.collapse = .ok pingEvent) ∧
    threeTexts passedText = .error .malformed ∧
    parseStatsEvent threeTexts passedText = .ok pingEvent := by
  refine ⟨?_,rfl,?_⟩
  · apply ((text_and_value_agree threeTexts aliasedText).1 aliasedTree rfl).1
    rintro ⟨k,hk,hc⟩
    revert k
    decide
  · apply ((text_and_value_agree threeTexts passedText).2 pingEvent).mpr
    refine ⟨.object [("Event",.string "Ping"),("Data",.ofI64 1)],rfl,?_,rfl⟩
    rintro ⟨k,hk,hc⟩
    revert k
    decide

theorem repeated_event_differs : ¬ ∀ e, parseStatsEvent threeTexts repeatedText = .ok e ↔
    parseStatsEventValue threeTexts repeatedTree.collapse = .ok e := by
  intro h
  have hv := (h (.unknown ⟨"Pong",.ofI64 1⟩)).mpr rfl
  cases hv

end RlStatsApi.EventTexts
