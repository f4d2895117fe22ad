import RlStatsApi.EventParsing

/-!
# Envelopes read from texts

Of an object's text an envelope needs the members under its own keys; the
others only have to be well formed. What is read is the envelope of the known
members' values. Where the whole text is a value this is the envelope of that
value's tree.
-/

set_option autoImplicit false

namespace RlStatsApi.EnvelopeReading
open RlStatsApi.JsonValue RlStatsApi.Error RlStatsApi.EventParsing RlStatsApi.TextReader

/-! ## Members under a name or its alias -/

/-- The entries under a name or its alias. -/
def given (m : Members) (a b : String) : Members := m.filter (fun p => p.1 = a ∨ p.1 = b)

theorem given_cons (p : String × Value) (m : Members) (a b : String) (hp : p.1 = a ∨ p.1 = b) :
    given (p::m) a b = p::given m a b :=
  List.filter_cons_of_pos (by simpa using hp)

theorem given_other (p : String × Value) (m : Members) (a b : String) (ha : p.1 ≠ a)
    (hb : p.1 ≠ b) : given (p::m) a b = given m a b :=
  List.filter_cons_of_neg (by simp [ha, hb])

/-! ## The known members of a text -/

def isKnown (key : String) : Bool := isEventKey key || isDataKey key

/-- The members under the envelope's keys; the others are passed over. -/
def knownMembers : List (String × Part) → Except Category Members
  | [] => .ok []
  | (k,p)::ps =>
    if isKnown k then do
      let v ← p.value
      let m ← knownMembers ps
      return (k,v)::m
    else do
      p.skip
      knownMembers ps

/-- The text as a value, without an object's unknown members. -/
def known : Document → Except Category Value
  | .object members ending => do
    let m ← knownMembers members
    ending.over
    return .object m
  | doc => doc.value

/-! ## The visitor on values -/

def Fields.put (f : Fields) (key : String) (v : Value) : Option Fields :=
  if isEventKey key then
    if f.event.isSome then none else v.asStr.map (fun event => {f with event := some event})
  else if isDataKey key then
    if f.data.isSome then none else some {f with data := some v}
  else some f

def fill : Fields → Members → Option Fields
  | f, [] => some f
  | f, (k,v)::m => (Fields.put f k v).bind (fun f => fill f m)

theorem text_ok_iff (p : Part) (s : String) :
    p.text = .ok s ↔ ∃ v, p.value = .ok v ∧ v.asStr = some s := by
  cases p with
  | held tree =>
    cases tree with
    | string s' =>
      constructor
      · intro h
        cases h
        exact ⟨_,rfl,rfl⟩
      · rintro ⟨_,⟨⟩,⟨⟩⟩
        rfl
    | _ =>
      constructor
      · intro h
        cases h
      · rintro ⟨_,⟨⟩,⟨⟩⟩
  | unheld c c' passed =>
    constructor
    · intro h
      cases h
    · rintro ⟨_,⟨⟩,_⟩

theorem visit_known (f f' : Fields) (key : String) (p : Part) (h : isKnown key = true) :
    f.visit key p = .ok f' ↔ ∃ v, p.value = .ok v ∧ Fields.put f key v = some f' := by
  by_cases he : isEventKey key = true
  · simp only [Fields.visit, Fields.put, if_pos he]
    by_cases hf : f.event.isSome = true
    · simp [hf]
    · simp only [if_neg hf, map_ok_iff, text_ok_iff, Option.map_eq_some_iff]
      constructor
      · rintro ⟨s,⟨v,hv,hs⟩,rfl⟩
        exact ⟨v,hv,s,hs,rfl⟩
      · rintro ⟨v,hv,s,hs,rfl⟩
        exact ⟨s,⟨v,hv,hs⟩,rfl⟩
  · have hd : isDataKey key = true := by simpa [isKnown, he] using h
    simp only [Fields.visit, Fields.put, if_neg he, if_pos hd]
    by_cases hf : f.data.isSome = true
    · simp [hf]
    · simp only [if_neg hf, map_ok_iff, Option.some.injEq]

theorem visit_unknown (f f' : Fields) (key : String) (p : Part) (h : isKnown key = false) :
    f.visit key p = .ok f' ↔ p.skip = .ok () ∧ f = f' := by
  obtain ⟨he,hd⟩ := Bool.or_eq_false_iff.mp h
  simp only [Fields.visit, he, hd, Bool.false_eq_true, if_false, map_ok_iff]
  exact ⟨fun ⟨_,hs,hf⟩ => ⟨hs,hf⟩,fun ⟨hs,hf⟩ => ⟨(),hs,hf⟩⟩

/-- The visitor fills in what the known members' values fill in. -/
theorem visitMap_ok_iff (members : List (String × Part)) (f f' : Fields) :
    visitMap f members = .ok f' ↔ ∃ m, knownMembers members = .ok m ∧ fill f m = some f' := by
  induction members generalizing f with
  | nil =>
    constructor
    · intro h
      cases h
      exact ⟨[],rfl,rfl⟩
    · rintro ⟨_,⟨⟩,⟨⟩⟩
      rfl
  | cons member members ih =>
    obtain ⟨k,p⟩ := member
    rw [visitMap, bind_ok_iff, knownMembers]
    by_cases hk : isKnown k = true
    · simp only [if_pos hk, visit_known f _ k p hk, ih, bind_ok_iff, pure_ok_iff]
      constructor
      · rintro ⟨f1,⟨v,hv,hf⟩,m,hm,hfill⟩
        exact ⟨_,⟨v,hv,m,hm,rfl⟩,by rw [fill, hf]; exact hfill⟩
      · rintro ⟨_,⟨v,hv,m,hm,rfl⟩,hfill⟩
        obtain ⟨f1,hf,hrest⟩ := Option.bind_eq_some_iff.mp hfill
        exact ⟨f1,⟨v,hv,hf⟩,m,hm,hrest⟩
    · have hk' : isKnown k = false := by simpa using hk
      simp only [if_neg hk, visit_unknown f _ k p hk', ih, bind_ok_iff]
      constructor
      · rintro ⟨_,⟨hs,rfl⟩,m,hm,hfill⟩
        exact ⟨m,⟨(),hs,hm⟩,hfill⟩
      · rintro ⟨m,⟨_,hs,hm⟩,hfill⟩
        exact ⟨f,⟨hs,rfl⟩,m,hm,hfill⟩

/-! ## What is filled in -/

/-- A field after the entries under its name; it takes one at most. -/
def slot {α : Type} (conv : Value → Option α) : Option α → Members → Option (Option α)
  | o, [] => some o
  | none, p::m => (conv p.2).bind (fun a => slot conv (some a) m)
  | some _, _::_ => none

theorem fill_eq (m : Members) (f : Fields) :
    fill f m = (slot Value.asStr f.event (given m "Event" "event")).bind (fun event =>
      (slot some f.data (given m "Data" "data")).map (fun data => ⟨event,data⟩)) := by
  induction m generalizing f with
  | nil => rfl
  | cons p m ih =>
    obtain ⟨k,v⟩ := p
    rw [fill, Fields.put]
    by_cases he : k = "Event" ∨ k = "event"
    · have hk : isEventKey k = true := by simpa [isEventKey] using he
      have hd : given ((k,v)::m) "Data" "data" = given m "Data" "data" := by
        rcases he with rfl | rfl <;> exact given_other _ _ _ _ (by simp) (by simp)
      rw [if_pos hk, given_cons _ _ _ _ he, hd]
      cases hf : f.event with
      | some s => simp [slot]
      | none => cases hs : v.asStr <;> simp [slot, hs, ih]
    · have hk : isEventKey k = false := by simpa [isEventKey] using he
      have hevent : given ((k,v)::m) "Event" "event" = given m "Event" "event" :=
        given_other _ _ _ _ (fun h => he (.inl h)) (fun h => he (.inr h))
      rw [hk, hevent]
      by_cases hd : k = "Data" ∨ k = "data"
      · have hk' : isDataKey k = true := by simpa [isDataKey] using hd
        rw [if_neg Bool.false_ne_true, if_pos hk', given_cons _ _ _ _ hd]
        cases hf : f.data with
        | some x => simp [slot]
        | none => simp [slot, ih]
      · have hk' : isDataKey k = false := by simpa [isDataKey] using hd
        have hdata : given ((k,v)::m) "Data" "data" = given m "Data" "data" :=
          given_other _ _ _ _ (fun h => hd (.inl h)) (fun h => hd (.inr h))
        rw [hk', if_neg Bool.false_ne_true, if_neg Bool.false_ne_true, hdata]
        exact ih f

/-- A field that has to be found is the one entry under its name. -/
theorem slot_some_iff {α : Type} (conv : Value → Option α) (m : Members) (a b : String) (x : α) :
    slot conv none (given m a b) = some (some x) ↔
      ∃ v, member m a b = some v ∧ conv v = some x := by
  have hgiven : m.filter (fun p => p.1 = a ∨ p.1 = b) = given m a b := rfl
  rw [member, hgiven]
  rcases given m a b with _ | ⟨p,_ | ⟨q,ps⟩⟩
  · simp [slot]
  · cases h : conv p.2 <;> simp [slot, h]
  · cases h : conv p.2 <;> simp [slot, h]

/-- The fields filled in from an object's members are those of its envelope. -/
theorem envelope_filled (m : Members) (env : EventEnvelope) :
    fill ⟨none,none⟩ m = some ⟨some env.event,some env.data⟩ ↔
      EventEnvelope.de (.object m) = some env := by
  obtain ⟨event,data⟩ := env
  rw [fill_eq, EventEnvelope.de]
  simp only [Option.bind_eq_some_iff, Option.map_eq_some_iff, Fields.mk.injEq,
    EventEnvelope.mk.injEq]
  constructor
  · rintro ⟨_,he,_,hd,rfl,rfl⟩
    obtain ⟨e,he,hs⟩ := (slot_some_iff _ _ _ _ _).mp he
    obtain ⟨d,hd,hx⟩ := (slot_some_iff _ _ _ _ _).mp hd
    cases hx
    exact ⟨e,he,_,hs,_,hd,rfl,rfl⟩
  · rintro ⟨e,he,_,hs,_,hd,rfl,rfl⟩
    exact ⟨_,(slot_some_iff _ _ _ _ _).mpr ⟨e,he,hs⟩,_,
      (slot_some_iff some _ _ _ _).mpr ⟨_,hd,rfl⟩,rfl,rfl⟩

/-! ## Envelopes of texts -/

theorem over_reached (ending : DocumentEnd) (h : ending.over = .ok ()) :
    ending.reached = .ok () := by
  cases ending with
  | closed => rfl
  | _ => cases h

theorem readItems_length (items : List Part) (xs : List Value) (h : readItems items = .ok xs) :
    xs.length = items.length := by
  induction items generalizing xs with
  | nil =>
    cases h
    rfl
  | cons p items ih =>
    obtain ⟨v,_,h⟩ := (bind_ok_iff _ _ _).mp h
    obtain ⟨ys,hys,h⟩ := (bind_ok_iff _ _ _).mp h
    cases (pure_ok_iff _ _).mp h
    exact congrArg (·+1) (ih ys hys)

theorem array_envelope (xs : List Value) (env : EventEnvelope)
    (h : EventEnvelope.de (.array xs) = some env) : xs.length = 2 := by
  match xs with
  | [_,_] => rfl
  | [] => cases h
  | [_] => cases h
  | _::_::_::_ => cases h

theorem fromItems_iff (items : List Part) (ending : DocumentEnd) (env : EventEnvelope) :
    EventEnvelope.fromDocument (.array items ending) = .ok env ↔
      ∃ tree, known (.array items ending) = .ok tree ∧ EventEnvelope.de tree = some env := by
  have hpair : (∃ tree, known (.array items ending) = .ok tree ∧
      EventEnvelope.de tree = some env) → items.length = 2 := by
    rintro ⟨tree,hknown,hde⟩
    obtain ⟨xs,hxs,h⟩ := (bind_ok_iff _ _ _).mp hknown
    obtain ⟨_,_,h⟩ := (bind_ok_iff _ _ _).mp h
    cases (pure_ok_iff _ _).mp h
    rw [← readItems_length items xs hxs, array_envelope xs env hde]
  have hnone (x : Except Category Unit) (c : Category) :
      (x >>= fun _ => (.error c : Except Category EventEnvelope)) ≠ .ok env := by
    intro h
    obtain ⟨_,_,h⟩ := (bind_ok_iff _ _ _).mp h
    cases h
  match items with
  | [] => exact ⟨fun h => absurd h (hnone _ _),fun h => by cases hpair h⟩
  | [e] =>
    refine ⟨fun h => ?_,fun h => by cases hpair h⟩
    obtain ⟨_,_,h⟩ := (bind_ok_iff _ _ _).mp h
    exact absurd h (hnone _ _)
  | [e,data] =>
    simp only [EventEnvelope.fromDocument, known, Document.value, readItems, bind_ok_iff,
      pure_ok_iff, text_ok_iff]
    constructor
    · rintro ⟨s,⟨v,hv,hs⟩,d,hd,_,hover,rfl⟩
      exact ⟨_,⟨_,⟨v,hv,_,⟨d,hd,[],rfl,rfl⟩,rfl⟩,(),hover,rfl⟩,by simp [EventEnvelope.de, hs]⟩
    · rintro ⟨_,⟨_,⟨v,hv,_,⟨d,hd,_,⟨⟩,rfl⟩,rfl⟩,_,hover,rfl⟩,hde⟩
      obtain ⟨s,hs,rfl⟩ := Option.map_eq_some_iff.mp hde
      exact ⟨s,⟨v,hv,hs⟩,d,hd,(),hover,rfl⟩
  | e::data::_::_ =>
    refine ⟨fun h => ?_,fun h => absurd (hpair h) (by simp)⟩
    obtain ⟨_,_,h⟩ := (bind_ok_iff _ _ _).mp h
    obtain ⟨_,_,h⟩ := (bind_ok_iff _ _ _).mp h
    cases h

theorem single_envelope (part : Part) (h : part.Single) (tree : Value)
    (ht : part.value = .ok tree) : EventEnvelope.de tree = none := by
  cases part with
  | held held =>
    cases ht
    cases tree with
    | object m => exact absurd h id
    | array xs => exact absurd h id
    | _ => rfl
  | unheld => cases ht

/-- The envelope read from a text is that of the text's known value. -/
theorem fromDocument_iff (doc : Document) (env : EventEnvelope) :
    EventEnvelope.fromDocument doc = .ok env ↔
      ∃ tree, known doc = .ok tree ∧ EventEnvelope.de tree = some env := by
  cases doc with
  | object members ending =>
    simp only [EventEnvelope.fromDocument, known, bind_ok_iff, pure_ok_iff, visitMap_ok_iff]
    constructor
    · rintro ⟨f,⟨m,hm,hf⟩,_,_,env',henv,_,hover,rfl⟩
      refine ⟨_,⟨m,hm,(),hover,rfl⟩,(envelope_filled m env').mp ?_⟩
      rw [hf]
      unfold Fields.envelope at henv
      split at henv
      · cases henv
        rfl
      · cases henv
    · rintro ⟨_,⟨m,hm,_,hover,rfl⟩,hde⟩
      exact ⟨_,⟨m,hm,(envelope_filled m env).mpr hde⟩,(),over_reached ending hover,env,rfl,(),hover,
        rfl⟩
  | array items ending => exact fromItems_iff items ending env
  | single part hs ending =>
    simp only [EventEnvelope.fromDocument, known, Document.value, bind_ok_iff, pure_ok_iff]
    constructor
    · rintro ⟨_,_,h⟩
      cases h
    · rintro ⟨_,⟨tree,ht,_,_,rfl⟩,hde⟩
      rw [single_envelope part hs tree ht] at hde
      cases hde

/-! ## Texts that are values -/

theorem known_of_read (members : List (String × Part)) (m : Members)
    (h : readMembers members = .ok m) :
    knownMembers members = .ok (m.filter (fun p => isKnown p.1)) := by
  induction members generalizing m with
  | nil =>
    cases h
    rfl
  | cons member members ih =>
    obtain ⟨k,p⟩ := member
    obtain ⟨v,hv,h⟩ := (bind_ok_iff _ _ _).mp h
    obtain ⟨m',hm',h⟩ := (bind_ok_iff _ _ _).mp h
    cases (pure_ok_iff _ _).mp h
    rw [knownMembers, ih m' hm']
    cases p with
    | unheld => cases hv
    | held tree =>
      cases hv
      by_cases hk : isKnown k = true
      · rw [if_pos hk, List.filter_cons, if_pos hk]
        rfl
      · rw [if_neg hk, List.filter_cons, if_neg hk]
        rfl

theorem member_known (m : Members) (a b : String)
    (h : ∀ p : String × Value, p.1 = a ∨ p.1 = b → isKnown p.1 = true) :
    member (m.filter (fun p => isKnown p.1)) a b = member m a b := by
  have hf : ((m.filter (fun p => isKnown p.1)).filter fun p => p.1 = a ∨ p.1 = b) =
      m.filter fun p => p.1 = a ∨ p.1 = b := by
    rw [List.filter_filter]
    apply List.filter_congr
    intro p _
    by_cases hp : p.1 = a ∨ p.1 = b <;> simp [hp, h p]
  rw [member, hf, member]

/-- The known value of a text that is a value has the envelope of the value. -/
theorem known_value (doc : Document) (tree : Value) (h : doc.value = .ok tree) :
    ∃ tree', known doc = .ok tree' ∧ EventEnvelope.de tree' = EventEnvelope.de tree := by
  cases doc with
  | object members ending =>
    obtain ⟨m,hm,h⟩ := (bind_ok_iff _ _ _).mp h
    obtain ⟨_,hover,h⟩ := (bind_ok_iff _ _ _).mp h
    cases (pure_ok_iff _ _).mp h
    refine ⟨.object (m.filter (fun p => isKnown p.1)),?_,?_⟩
    · rw [known, known_of_read members m hm]
      exact (bind_ok_iff _ _ _).mpr ⟨_,rfl,(bind_ok_iff _ _ _).mpr ⟨_,hover,rfl⟩⟩
    · rw [EventEnvelope.de, EventEnvelope.de, member_known m, member_known m]
      · rintro p (hp | hp) <;> simp [isKnown, isDataKey, hp]
      · rintro p (hp | hp) <;> simp [isKnown, isEventKey, hp]
  | array items ending => exact ⟨tree,h,rfl⟩
  | single part hs ending => exact ⟨tree,h,rfl⟩

variable (read : Reader)

theorem parseStatsEvent_iff (input : String) (e : StatsEvent) :
    parseStatsEvent read input = .ok e ↔
      ∃ tree env, known (read.scan input) = .ok tree ∧ EventEnvelope.de tree = some env ∧
        parseEventEnvelope read ⟨env.event,env.data.collapse⟩ = .ok e := by
  unfold parseStatsEvent
  split
  · next category h =>
    constructor
    · intro h
      cases h
    · rintro ⟨tree,env,hk,hde,_⟩
      rw [(fromDocument_iff _ env).mpr ⟨tree,hk,hde⟩] at h
      cases h
  · next env h =>
    constructor
    · intro hp
      obtain ⟨tree,hk,hde⟩ := (fromDocument_iff _ env).mp h
      exact ⟨tree,env,hk,hde,hp⟩
    · rintro ⟨tree,env',hk,hde,hp⟩
      rw [(fromDocument_iff _ env').mpr ⟨tree,hk,hde⟩] at h
      cases h
      exact hp

/-- A text that is a value is parsed by the envelope of its tree. -/
theorem parseStatsEvent_read (input : String) (tree : Value) (h : read input = .ok tree)
    (e : StatsEvent) : parseStatsEvent read input = .ok e ↔
      ∃ env, EventEnvelope.de tree = some env ∧
        parseEventEnvelope read ⟨env.event,env.data.collapse⟩ = .ok e := by
  obtain ⟨tree',hk,hde⟩ := known_value (read.scan input) tree h
  rw [parseStatsEvent_iff]
  constructor
  · rintro ⟨tree'',env,hk',hde',hp⟩
    rw [hk] at hk'
    cases hk'
    exact ⟨env,by rw [← hde, hde'],hp⟩
  · rintro ⟨env,hde',hp⟩
    exact ⟨tree',env,hk,by rw [hde, hde'],hp⟩

end RlStatsApi.EnvelopeReading
