import RlStatsApi.KeyedItems
import RlStatsApi.TextLines

/-!
# INI texts

A line is cut at its indentation by a byte offset that counts characters, so
the cut fails where the indentation is not ASCII; `none` is that failure.
Where no line fails, a text is its list of headers and assignments, a lookup
is the first assignment of its key, and an upsert of a text is an upsert of
its items.
-/

set_option autoImplicit false

namespace RlStatsApi.IniText
open RlStatsApi.TextLines RlStatsApi.KeyedItems

/-- The characters before and after a byte offset; `none` inside a character. -/
def splitAtByte (n : ℕ) : Text → Option (Text × Text)
  | [] => if n = 0 then some ([],[]) else none
  | c::s =>
    if n = 0 then some ([],c::s)
    else if c.utf8Size ≤ n then (splitAtByte (n-c.utf8Size) s).map (fun p => (c::p.1,p.2))
    else none

def indentLen (line : Text) : ℕ := (line.takeWhile isWhitespace).length

def skipped (trimmed : Text) : Bool :=
  match trimmed with
  | [] => true
  | c::_ => c = ';' || c = '#' || c = '['

/-- The two sides of a trimmed line that is no comment and no header. -/
def parts (trimmed : Text) : Option (Text × Text) :=
  if skipped trimmed = true then none
  else (splitOnce '=' trimmed).map (fun p => (trim p.1,trim p.2))

def splitKeyValue (line : Text) : Option (Option (Text × Text × Text)) :=
  (splitAtByte (indentLen line) line).map (fun p =>
    (parts (trim p.2)).map (fun q => (q.1,q.2,p.1)))

/-- The loop of `find_string_value` over the lines. -/
def findLine (key : Text) : List Text → Option (Option Text)
  | [] => some none
  | line::rest =>
    match splitKeyValue line with
    | none => none
    | some (some (lhs,rhs,_)) =>
      if eqIgnoreAsciiCase lhs key = true then some (some rhs) else findLine key rest
    | some none => findLine key rest

def findStringValue (contents key : Text) : Option (Option Text) := findLine key (lines contents)

def assignment (key value : Text) : Text := key++ '='::value

/-- A line as `upsert_key` writes it, and whether it assigns the key. -/
def rewriteLine (key value line : Text) : Option (Text × Bool) :=
  (splitKeyValue line).map (fun
    | some (lhs,_,indent) =>
      if eqIgnoreAsciiCase lhs key = true then (indent++assignment key value,true)
      else (line,false)
    | none => (line,false))

/-- The loop of `upsert_key`: the lines written, and whether the key was found. -/
def rewriteLines (key value : Text) : List Text → Option (List Text × Bool)
  | [] => some ([],false)
  | line::rest =>
    (rewriteLine key value line).bind (fun p =>
      (rewriteLines key value rest).map (fun q => (p.1::q.1,p.2 || q.2)))

def appendKey (key value : Text) (output : List Text) : List Text :=
  (if output ≠ [] ∧ output.getLast? ≠ some [] then output++[[]] else output)++
    [assignment key value]

def upsertKey (contents key value : Text) : Option Text :=
  (rewriteLines key value (lines contents)).map (fun p =>
    joinLines (if p.2 = true then p.1 else appendKey key value p.1))

/-! ## Texts as items -/

def norm (key : Text) : Text := key.map Char.toLower

def itemOf (line : Text) : Option (Item Text Text Text) :=
  if (trim line).head? = some '[' then some (.header (trim line))
  else (parts (trim line)).map (fun p => .assign p.1 p.2)

def items (contents : Text) : List (Item Text Text Text) := (lines contents).filterMap itemOf

theorem itemOf_trim (l l' : Text) (h : trim l = trim l') : itemOf l = itemOf l' := by
  rw [itemOf, itemOf, h]

theorem itemOf_stripCr (l : Text) : itemOf (stripCr l) = itemOf l :=
  itemOf_trim _ _ (trim_stripCr l)

theorem utf8Size_pos (c : Char) : 0 < c.utf8Size := Char.utf8Size_pos c

theorem splitAtByte_append (n : ℕ) (s a b : Text) (h : splitAtByte n s = some (a,b)) :
    a++b = s ∧ a.length ≤ n := by
  induction s generalizing n a with
  | nil =>
    simp only [splitAtByte] at h
    split_ifs at h
    cases h
    exact ⟨rfl,Nat.zero_le _⟩
  | cons c s ih =>
    simp only [splitAtByte] at h
    split_ifs at h with h0 h1
    · cases h
      exact ⟨rfl,Nat.zero_le _⟩
    · obtain ⟨p,hp,he⟩ := Option.map_eq_some_iff.mp h
      cases he
      obtain ⟨hs,hl⟩ := ih _ p.1 hp
      have hpos := utf8Size_pos c
      constructor
      · simp [hs]
      · simp only [List.length_cons]
        omega

/-- What is cut off a line is blank. -/
theorem splitAtByte_indent (line indent rest : Text)
    (h : splitAtByte (indentLen line) line = some (indent,rest)) :
    isBlank indent = true ∧ indent <+: line ∧ trim rest = trim line := by
  obtain ⟨hs,hl⟩ := splitAtByte_append _ _ _ _ h
  have hp : indent <+: line := ⟨rest,hs⟩
  have hpre : indent <+: line.takeWhile isWhitespace :=
    List.prefix_of_prefix_length_le hp (List.takeWhile_prefix _) hl
  have hb : isBlank indent = true := by
    rw [isBlank, List.all_eq_true]
    exact fun c hc => List.mem_takeWhile_imp (hpre.subset hc)
  refine ⟨hb,hp,?_⟩
  rw [← hs, trim_blank_append indent rest hb]

theorem itemOf_parts (l : Text) (k v : Text) :
    itemOf l = some (.assign k v) ↔ parts (trim l) = some (k,v) := by
  unfold itemOf
  split_ifs with h
  · obtain ⟨t,ht⟩ := List.head?_eq_some_iff.mp h
    simp [ht, parts, skipped]
  · cases parts (trim l) <;> simp [Prod.ext_iff]

theorem itemOf_unassigned (l : Text) (h : parts (trim l) = none) :
    itemOf l = none ∨ ∃ t, itemOf l = some (.header t) := by
  cases hi : itemOf l with
  | none => exact .inl rfl
  | some item =>
    cases item with
    | header t => exact .inr ⟨t,rfl⟩
    | assign k v =>
      rw [(itemOf_parts l k v).mp hi] at h
      cases h

theorem splitKeyValue_some (l : Text) (r : Option (Text × Text × Text))
    (h : splitKeyValue l = some r) : ∃ indent, isBlank indent = true ∧ indent <+: l ∧
      r = (parts (trim l)).map (fun q => (q.1,q.2,indent)) := by
  obtain ⟨p,hp,rfl⟩ := Option.map_eq_some_iff.mp h
  obtain ⟨hb,hpre,ht⟩ := splitAtByte_indent l p.1 p.2 hp
  exact ⟨p.1,hb,hpre,by rw [ht]⟩

theorem eqIgnoreAsciiCase_norm (s t : Text) : eqIgnoreAsciiCase s t = true ↔ norm s = norm t := by
  simp [eqIgnoreAsciiCase, norm]

/-! ## Lookup -/

theorem value_cons_none (key l : Text) (ls : List Text) (h : parts (trim l) = none) :
    value norm key ((l::ls).filterMap itemOf) = value norm key (ls.filterMap itemOf) := by
  rw [List.filterMap_cons]
  rcases itemOf_unassigned l h with hi | ⟨t,hi⟩
  · rw [hi]
  · rw [hi, value]

theorem findLine_value (key : Text) (ls : List Text) (r : Option Text)
    (h : findLine key ls = some r) : r = value norm key (ls.filterMap itemOf) := by
  induction ls with
  | nil =>
    cases h
    rfl
  | cons l ls ih =>
    rw [findLine] at h
    cases hs : splitKeyValue l with
    | none => simp [hs] at h
    | some q =>
      obtain ⟨indent,_,_,rfl⟩ := splitKeyValue_some l q hs
      cases hp : parts (trim l) with
      | none =>
        simp only [hs, hp, Option.map_none] at h
        rw [value_cons_none key l ls hp]
        exact ih h
      | some kv =>
        simp only [hs, hp, Option.map_some] at h
        rw [List.filterMap_cons, (itemOf_parts l kv.1 kv.2).mpr hp]
        split_ifs at h with hk
        · cases h
          simp [value, (eqIgnoreAsciiCase_norm kv.1 key).mp hk]
        · have hk' : norm kv.1 ≠ norm key := fun he =>
            hk ((eqIgnoreAsciiCase_norm kv.1 key).mpr he)
          simpa [value, hk'] using ih h

/-- A lookup that completes finds the first assignment. -/
theorem findStringValue_value (contents key : Text) (r : Option Text)
    (h : findStringValue contents key = some r) : r = value norm key (items contents) :=
  findLine_value key (lines contents) r h

/-! ## Rewriting -/

/-- A key and a value that a line can hold. -/
structure Plain (key value : Text) : Prop where
  key_trim : trim key = key
  key_start : skipped key = false
  key_sep : '=' ∉ key
  key_feed : '\n' ∉ key
  value_trim : trim value = value
  value_feed : '\n' ∉ value

theorem trim_assignment (key value : Text) (h : Plain key value) :
    trim (assignment key value) = assignment key value := by
  have hne : key ≠ [] := by
    rintro rfl
    exact absurd h.key_start (by decide)
  obtain ⟨c,t,rfl⟩ := List.exists_cons_of_ne_nil hne
  apply trim_eq_self
  · intro d hd
    apply trim_head (c::t) d
    rw [h.key_trim]
    exact hd
  · intro d hd
    rw [assignment, List.getLast?_append_of_ne_nil _ (by simp)] at hd
    cases value with
    | nil =>
      cases hd
      decide
    | cons x xs =>
      apply trim_last (x::xs) d
      rw [h.value_trim]
      exact hd

theorem parts_assignment (key value : Text) (h : Plain key value) :
    parts (assignment key value) = some (key,value) := by
  have hs : skipped (assignment key value) = false := by
    have hk := h.key_start
    cases key with
    | nil => exact absurd hk (by decide)
    | cons c t => exact hk
  rw [parts, hs, assignment, splitOnce_append '=' key value h.key_sep]
  simp [h.key_trim, h.value_trim]

theorem itemOf_written (indent key value : Text) (hb : isBlank indent = true)
    (h : Plain key value) :
    itemOf (indent++assignment key value) = some (.assign key value) := by
  rw [itemOf_parts, trim_blank_append _ _ hb, trim_assignment key value h]
  exact parts_assignment key value h

theorem itemOf_empty : itemOf [] = none := rfl

theorem no_feed_assignment (key value : Text) (h : Plain key value) :
    '\n' ∉ assignment key value := by
  have hc : '\n' ≠ '=' := by decide
  simp [assignment, h.key_feed, h.value_feed, hc]

/-- One line: its item is rewritten. -/
theorem rewriteLine_item (key value l l' : Text) (hp : Plain key value) (found : Bool)
    (h : rewriteLine key value l = some (l',found)) :
    (itemOf l').toList = rewrite norm key value (itemOf l).toList ∧
    found = assigns norm key (itemOf l).toList ∧ ('\n' ∉ l → '\n' ∉ l') := by
  obtain ⟨q,hs,he⟩ := Option.map_eq_some_iff.mp h
  obtain ⟨indent,hb,hpre,rfl⟩ := splitKeyValue_some l q hs
  cases hparts : parts (trim l) with
  | none =>
    simp only [hparts, Option.map_none] at he
    cases he
    rcases itemOf_unassigned l hparts with hi | ⟨t,hi⟩
    · rw [hi]
      exact ⟨rfl,rfl,id⟩
    · rw [hi]
      exact ⟨rfl,rfl,id⟩
  | some kv =>
    have hi : itemOf l = some (.assign kv.1 kv.2) := (itemOf_parts l kv.1 kv.2).mpr hparts
    simp only [hparts, Option.map_some] at he
    split_ifs at he with hk
    · have hk' := (eqIgnoreAsciiCase_norm kv.1 key).mp hk
      cases he
      rw [itemOf_written indent key value hb hp, hi]
      refine ⟨by simp [rewrite, hk'],by simp [assigns, hk'],?_⟩
      intro hfeed hmem
      rcases List.mem_append.mp hmem with hm | hm
      · exact hfeed (hpre.subset hm)
      · exact no_feed_assignment key value hp hm
    · have hk' : norm kv.1 ≠ norm key := fun he =>
        hk ((eqIgnoreAsciiCase_norm kv.1 key).mpr he)
      cases he
      rw [hi]
      exact ⟨by simp [rewrite, hk'],by simp [assigns, hk'],id⟩

theorem filterMap_cons_toList (l : Text) (ls : List Text) :
    (l::ls).filterMap itemOf = (itemOf l).toList++ls.filterMap itemOf := by
  rw [List.filterMap_cons]
  cases itemOf l <;> rfl

/-- The lines written are those read, with every assignment of the key
replaced. -/
theorem rewriteLines_items (key value : Text) (hp : Plain key value) (ls out : List Text)
    (found : Bool) (hfeed : ∀ l ∈ ls, '\n' ∉ l) (h : rewriteLines key value ls = some (out,found)) :
    out.filterMap itemOf = rewrite norm key value (ls.filterMap itemOf) ∧
    found = assigns norm key (ls.filterMap itemOf) ∧ ∀ l ∈ out, '\n' ∉ l := by
  induction ls generalizing out found with
  | nil =>
    cases h
    exact ⟨rfl,rfl,by simp⟩
  | cons l ls ih =>
    obtain ⟨⟨l',f⟩,hl,h⟩ := Option.bind_eq_some_iff.mp h
    obtain ⟨⟨out',f'⟩,hr,he⟩ := Option.map_eq_some_iff.mp h
    cases he
    obtain ⟨h1,h2,h3⟩ := rewriteLine_item key value l l' hp f hl
    obtain ⟨i1,i2,i3⟩ := ih out' f' (fun x hx => hfeed x (by simp [hx])) hr
    rw [filterMap_cons_toList, filterMap_cons_toList, rewrite_append, assigns_append, h1, h2, i1,
      i2]
    refine ⟨rfl,rfl,?_⟩
    intro x hx
    rcases List.mem_cons.mp hx with rfl | hx
    · exact h3 (hfeed l (by simp))
    · exact i3 x hx

theorem appendKey_items (key value : Text) (hp : Plain key value) (out : List Text)
    (hfeed : ∀ l ∈ out, '\n' ∉ l) :
    (appendKey key value out).filterMap itemOf = out.filterMap itemOf++[.assign key value] ∧
    ∀ l ∈ appendKey key value out, '\n' ∉ l := by
  have hw : itemOf (assignment key value) = some (.assign key value) :=
    itemOf_written [] key value rfl hp
  have hf := no_feed_assignment key value hp
  unfold appendKey
  split_ifs
  · constructor
    · simp [List.filterMap_append, List.filterMap_cons, itemOf_empty, hw]
    · intro l hl
      rcases List.mem_append.mp hl with hl | hl
      · rcases List.mem_append.mp hl with hl | hl
        · exact hfeed l hl
        · simp_all
      · simp_all
  · constructor
    · simp [List.filterMap_append, hw]
    · intro l hl
      rcases List.mem_append.mp hl with hl | hl
      · exact hfeed l hl
      · simp_all

theorem items_joinLines (out : List Text) (hfeed : ∀ l ∈ out, '\n' ∉ l) (hne : out ≠ []) :
    items (joinLines out) = out.filterMap itemOf := by
  rw [items, lines_joinLines out hfeed hne]
  exact filterMap_endLines itemOf itemOf_stripCr itemOf_empty out

/-- An upsert that completes is an upsert of the items. -/
theorem upsertKey_items (contents key value out : Text) (hp : Plain key value)
    (h : upsertKey contents key value = some out) :
    items out = upsert norm key value (items contents) := by
  obtain ⟨⟨ls,found⟩,hr,rfl⟩ := Option.map_eq_some_iff.mp h
  obtain ⟨h1,rfl,h3⟩ := rewriteLines_items key value hp _ ls found (no_feed_lines contents) hr
  have hitems : (lines contents).filterMap itemOf = items contents := rfl
  rw [hitems] at h1 ⊢
  unfold upsert
  split_ifs with ha
  · have hne : ls ≠ [] := by
      rintro rfl
      have hz := value_rewrite norm key value _ ha
      rw [← h1] at hz
      cases hz
    rw [items_joinLines ls h3 hne, h1]
  · obtain ⟨a1,a2⟩ := appendKey_items key value hp ls h3
    rw [items_joinLines _ a2 (by simp [appendKey]), a1, h1,
      rewrite_none norm key value _ (by simpa using ha)]

/-! ## ASCII indentation -/

def isAscii (c : Char) : Bool := decide (c.val ≤ 127)

def asciiLed (line : Text) : Bool := (line.takeWhile isWhitespace).all isAscii

def AsciiLed (contents : Text) : Prop := ∀ l ∈ lines contents, asciiLed l = true

instance (contents : Text) : Decidable (AsciiLed contents) :=
  inferInstanceAs (Decidable (∀ l ∈ lines contents, asciiLed l = true))

end RlStatsApi.IniText
