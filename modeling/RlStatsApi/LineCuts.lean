import RlStatsApi.IniText

/-!
# Where lines can be cut

A line is cut after as many bytes as it has leading white space characters,
so the cut is sound when a part of that many bytes ends at a character. A
lookup cuts the lines up to the first assignment of its key, and a rewrite
all of them. Where the indentation is ASCII every cut is sound.
-/

set_option autoImplicit false

namespace RlStatsApi.LineCuts
open RlStatsApi.TextLines RlStatsApi.KeyedItems RlStatsApi.IniText

/-! ## Byte offsets -/

def byteLength : Text → ℕ
  | [] => 0
  | c::s => c.utf8Size+byteLength s

/-- The characters that fit into the first bytes. -/
def takeBytes : ℕ → Text → Text
  | _, [] => []
  | n, c::s => if c.utf8Size ≤ n then c::takeBytes (n-c.utf8Size) s else []

/-- The offset at which the line is cut is a boundary of its characters. -/
def Sound (line : Text) : Prop := byteLength (takeBytes (indentLen line) line) = indentLen line

instance (line : Text) : Decidable (Sound line) := inferInstanceAs (Decidable (_ = _))

theorem splitAtByte_returns_iff (n : ℕ) (s : Text) :
    (∃ p, splitAtByte n s = some p) ↔ byteLength (takeBytes n s) = n := by
  induction s generalizing n with
  | nil =>
    rw [splitAtByte]
    split_ifs with h0
    · simp [h0, takeBytes, byteLength]
    · simp [takeBytes, byteLength, Ne.symm h0]
  | cons c s ih =>
    have hpos := utf8Size_pos c
    rw [splitAtByte, takeBytes]
    split_ifs with h0 hc hc
    · omega
    · simp [h0, byteLength]
    · have hrest := ih (n-c.utf8Size)
      simp only [Option.map_eq_some_iff, byteLength]
      constructor
      · rintro ⟨_,p,hp,_⟩
        have := hrest.mp ⟨p,hp⟩
        omega
      · intro h
        obtain ⟨p,hp⟩ := hrest.mpr (by omega)
        exact ⟨_,p,hp,rfl⟩
    · simp [byteLength, Ne.symm h0]

theorem splitAtByte_first (n : ℕ) (s : Text) (p : Text × Text) (h : splitAtByte n s = some p) :
    p.1 = takeBytes n s := by
  induction s generalizing n p with
  | nil =>
    rw [splitAtByte] at h
    split_ifs at h
    cases h
    rfl
  | cons c s ih =>
    have hpos := utf8Size_pos c
    rw [splitAtByte] at h
    rw [takeBytes]
    by_cases h0 : n = 0
    · rw [if_pos h0] at h
      cases h
      rw [if_neg (by omega)]
    · rw [if_neg h0] at h
      split_ifs at h with hc
      obtain ⟨q,hq,rfl⟩ := Option.map_eq_some_iff.mp h
      rw [if_pos hc]
      exact congrArg (c::·) (ih _ q hq)

theorem takeBytes_cut (n : ℕ) (s : Text) : takeBytes n s <+: s := by
  induction s generalizing n with
  | nil => exact List.prefix_refl _
  | cons c s ih =>
    rw [takeBytes]
    split_ifs with hc
    · exact List.cons_prefix_cons.mpr ⟨rfl,ih _⟩
    · exact List.nil_prefix

theorem takeBytes_append (cut rest : Text) : takeBytes (byteLength cut) (cut++rest) = cut := by
  induction cut with
  | nil =>
    cases rest with
    | nil => rfl
    | cons c rest =>
      have hpos := utf8Size_pos c
      rw [List.nil_append, takeBytes, byteLength, if_neg (by omega)]
  | cons c cut ih =>
    rw [List.cons_append, takeBytes, byteLength, if_pos (Nat.le_add_right _ _),
      Nat.add_sub_cancel_left, ih]

theorem length_le_byteLength (s : Text) : s.length ≤ byteLength s := by
  induction s with
  | nil => exact Nat.le_refl _
  | cons c s ih =>
    have hpos := utf8Size_pos c
    rw [List.length_cons, byteLength]
    omega

/-- A sound cut takes leading white space that has as many bytes as all of it
has characters. -/
theorem sound_iff (line : Text) : Sound line ↔ ∃ cut, cut <+: line.takeWhile isWhitespace ∧
    byteLength cut = (line.takeWhile isWhitespace).length := by
  constructor
  · intro h
    have hlen := length_le_byteLength (takeBytes (indentLen line) line)
    rw [h] at hlen
    exact ⟨takeBytes (indentLen line) line,List.prefix_of_prefix_length_le
      (takeBytes_cut _ line) (List.takeWhile_prefix _) hlen,h⟩
  · rintro ⟨cut,hc,hlen⟩
    obtain ⟨rest,hr⟩ := hc.trans (List.takeWhile_prefix _)
    have ht := takeBytes_append cut rest
    rw [hr, hlen] at ht
    rw [Sound, indentLen, ht, hlen]

/-- Both slices of a line lie on character boundaries exactly when it is sound. -/
theorem splitKeyValue_returns_iff (line : Text) : (∃ q, splitKeyValue line = some q) ↔ Sound line := by
  rw [Sound, ← splitAtByte_returns_iff]
  simp [splitKeyValue]

theorem splitKeyValue_sound (line : Text) (h : Sound line) : splitKeyValue line =
    some ((parts (trim line)).map (fun q => (q.1,q.2,takeBytes (indentLen line) line))) := by
  rw [Sound, ← splitAtByte_returns_iff] at h
  obtain ⟨p,hp⟩ := h
  have ht := (splitAtByte_indent line p.1 p.2 hp).2.2
  have hfirst := splitAtByte_first (indentLen line) line p hp
  rw [splitKeyValue, hp, Option.map_some, ht, hfirst]

/-! ## Lookups and rewrites -/

def assignsKey (key line : Text) : Bool :=
  (parts (trim line)).any (fun p => eqIgnoreAsciiCase p.1 key)

/-- The lines a lookup reads. -/
def scanned (key : Text) : List Text → List Text
  | [] => []
  | line::rest => if assignsKey key line = true then [line] else line::scanned key rest

def ScanSound (key contents : Text) : Prop := ∀ line ∈ scanned key (lines contents), Sound line

def AllSound (contents : Text) : Prop := ∀ line ∈ lines contents, Sound line

instance (key contents : Text) : Decidable (ScanSound key contents) :=
  inferInstanceAs (Decidable (∀ line ∈ scanned key (lines contents), Sound line))

instance (contents : Text) : Decidable (AllSound contents) :=
  inferInstanceAs (Decidable (∀ line ∈ lines contents, Sound line))

theorem findLine_returns_iff (key : Text) (ls : List Text) :
    (∃ r, findLine key ls = some r) ↔ ∀ line ∈ scanned key ls, Sound line := by
  induction ls with
  | nil => simp [findLine, scanned]
  | cons l ls ih =>
    rw [findLine, scanned]
    by_cases hl : Sound l
    · rw [splitKeyValue_sound l hl, assignsKey]
      cases hp : parts (trim l) with
      | none => simpa [hl] using ih
      | some p =>
        by_cases hk : eqIgnoreAsciiCase p.1 key = true
        · simp [hk, hl]
        · simpa [hk, hl] using ih
    · have hnone : splitKeyValue l = none := by
        rw [Option.eq_none_iff_forall_ne_some]
        exact fun q hq => hl ((splitKeyValue_returns_iff l).mp ⟨q,hq⟩)
      rw [hnone]
      split_ifs
      · simp [hl]
      · simp [hl]

theorem findStringValue_returns_iff (contents key : Text) :
    (∃ r, findStringValue contents key = some r) ↔ ScanSound key contents :=
  findLine_returns_iff key (lines contents)

/-- A line as it is written. -/
def rewritten (key value line : Text) : Text :=
  if assignsKey key line = true then takeBytes (indentLen line) line++assignment key value
  else line

def editedLines (key value : Text) (ls : List Text) : List Text :=
  if ls.any (assignsKey key) = true then ls.map (rewritten key value)
  else appendKey key value (ls.map (rewritten key value))

/-- The text with its assignments of the key replaced, or one added. -/
def edited (key value contents : Text) : Text :=
  joinLines (editedLines key value (lines contents))

theorem rewriteLine_sound (key value l : Text) (h : Sound l) :
    rewriteLine key value l = some (rewritten key value l,assignsKey key l) := by
  rw [rewriteLine, splitKeyValue_sound l h, rewritten, assignsKey]
  cases parts (trim l) with
  | none => simp
  | some p =>
    by_cases hk : eqIgnoreAsciiCase p.1 key = true
    · simp [hk]
    · simp [hk]

theorem rewriteLines_sound (key value : Text) (ls : List Text) (h : ∀ l ∈ ls, Sound l) :
    rewriteLines key value ls =
      some (ls.map (rewritten key value),ls.any (assignsKey key)) := by
  induction ls with
  | nil => rfl
  | cons l ls ih =>
    rw [rewriteLines, rewriteLine_sound key value l (h l (by simp)),
      ih (fun x hx => h x (by simp [hx]))]
    rfl

theorem rewriteLines_returns (key value : Text) (ls : List Text) (r : List Text × Bool)
    (h : rewriteLines key value ls = some r) : ∀ l ∈ ls, Sound l := by
  induction ls generalizing r with
  | nil => simp
  | cons l ls ih =>
    obtain ⟨p,hp,h⟩ := Option.bind_eq_some_iff.mp h
    obtain ⟨q,hq,_⟩ := Option.map_eq_some_iff.mp h
    obtain ⟨s,hs,_⟩ := Option.map_eq_some_iff.mp hp
    intro x hx
    rcases List.mem_cons.mp hx with rfl | hx
    · exact (splitKeyValue_returns_iff x).mp ⟨s,hs⟩
    · exact ih q hq x hx

/-- An upsert cuts every line, and then its text is the edited one. -/
theorem upsertKey_iff (contents key value out : Text) :
    upsertKey contents key value = some out ↔ AllSound contents ∧ out = edited key value contents := by
  constructor
  · intro h
    obtain ⟨r,hr,rfl⟩ := Option.map_eq_some_iff.mp h
    have hs := rewriteLines_returns key value _ r hr
    refine ⟨hs,?_⟩
    rw [rewriteLines_sound key value _ hs] at hr
    cases hr
    rfl
  · rintro ⟨hs,rfl⟩
    rw [upsertKey, rewriteLines_sound key value _ hs]
    rfl

/-! ## The lines written -/

/-- What holds of the rewritten lines and of an added one holds of all. -/
theorem editedLines_all (p : Text → Prop) (key value : Text) (ls : List Text)
    (hl : ∀ l ∈ ls, p (rewritten key value l)) (hempty : p []) (hnew : p (assignment key value)) :
    ∀ l ∈ editedLines key value ls, p l := by
  have hmap : ∀ l ∈ ls.map (rewritten key value), p l := List.forall_mem_map.mpr hl
  have hone : ∀ l ∈ [assignment key value], p l := by
    intro l hm
    rw [List.mem_singleton.mp hm]
    exact hnew
  unfold editedLines
  split_ifs
  · exact hmap
  · rw [appendKey, List.forall_mem_append]
    refine ⟨?_,hone⟩
    split_ifs
    · rw [List.forall_mem_append]
      refine ⟨hmap,?_⟩
      intro l hm
      rw [List.mem_singleton.mp hm]
      exact hempty
    · exact hmap

theorem editedLines_nonempty (key value : Text) (ls : List Text) : editedLines key value ls ≠ [] := by
  unfold editedLines
  split_ifs with h
  · intro he
    rw [List.map_eq_nil_iff] at he
    simp [he] at h
  · simp [appendKey]

theorem no_feed_rewritten (key value l : Text) (hp : Plain key value) (h : '\n' ∉ l) :
    '\n' ∉ rewritten key value l := by
  rw [rewritten]
  split_ifs
  · intro hm
    rcases List.mem_append.mp hm with hm | hm
    · exact h ((takeBytes_cut _ l).subset hm)
    · exact no_feed_assignment key value hp hm
  · exact h

theorem lines_edited (key value contents : Text) (hp : Plain key value) :
    lines (edited key value contents) = endLines (editedLines key value (lines contents)) := by
  apply lines_joinLines _ _ (editedLines_nonempty key value _)
  apply editedLines_all
  · exact fun l hl => no_feed_rewritten key value l hp (no_feed_lines contents l hl)
  · simp
  · exact no_feed_assignment key value hp

/-! ## ASCII indentation -/

theorem byteLength_ascii (s : Text) (h : s.all isAscii = true) : byteLength s = s.length := by
  induction s with
  | nil => rfl
  | cons c s ih =>
    simp only [List.all_cons, Bool.and_eq_true, isAscii, decide_eq_true_eq] at h
    have hc : c.utf8Size = 1 := Char.utf8Size_eq_one_iff.mpr h.1
    rw [byteLength, hc, ih h.2, List.length_cons, Nat.add_comm]

theorem takeBytes_ascii (l : Text) (h : asciiLed l = true) :
    takeBytes (indentLen l) l = l.takeWhile isWhitespace := by
  have ht := takeBytes_append (l.takeWhile isWhitespace) (l.dropWhile isWhitespace)
  rwa [List.takeWhile_append_dropWhile, byteLength_ascii _ h] at ht

theorem sound_ascii (l : Text) (h : asciiLed l = true) : Sound l :=
  (sound_iff l).mpr ⟨l.takeWhile isWhitespace,List.prefix_refl _,byteLength_ascii _ h⟩

theorem allSound_ascii (contents : Text) (h : AsciiLed contents) : AllSound contents :=
  fun l hl => sound_ascii l (h l hl)

theorem scanned_subset (key : Text) (ls : List Text) : scanned key ls ⊆ ls := by
  induction ls with
  | nil => exact List.Subset.refl _
  | cons l ls ih =>
    rw [scanned]
    split_ifs
    · simp
    · exact List.cons_subset_cons l ih

theorem scanSound_ascii (key contents : Text) (h : AsciiLed contents) : ScanSound key contents :=
  fun l hl => allSound_ascii contents h l (scanned_subset key _ hl)

theorem findStringValue_ascii (contents key : Text) (h : AsciiLed contents) :
    findStringValue contents key = some (value norm key (items contents)) := by
  obtain ⟨r,hr⟩ := (findStringValue_returns_iff contents key).mpr (scanSound_ascii key contents h)
  rw [hr, findStringValue_value contents key r hr]

theorem takeWhile_written (indent key value : Text) (hb : isBlank indent = true)
    (hp : Plain key value) :
    (indent++assignment key value).takeWhile isWhitespace = indent := by
  have hi : ∀ c ∈ indent, isWhitespace c = true := by simpa [isBlank] using hb
  have ht : (assignment key value).takeWhile isWhitespace = [] := by
    have hd := trim_head (assignment key value)
    rw [trim_assignment key value hp] at hd
    cases ha : assignment key value with
    | nil => rfl
    | cons c t => simp [hd c (by rw [ha]; rfl)]
  rw [List.takeWhile_append_of_pos hi, ht, List.append_nil]

theorem asciiLed_written (indent key value : Text) (hb : isBlank indent = true)
    (ha : indent.all isAscii = true) (hp : Plain key value) :
    asciiLed (indent++assignment key value) = true := by
  rw [asciiLed, takeWhile_written indent key value hb hp]
  exact ha

theorem isBlank_takeWhile (l : Text) : isBlank (l.takeWhile isWhitespace) = true := by
  rw [isBlank, List.all_eq_true]
  exact fun c hc => List.mem_takeWhile_imp hc

theorem asciiLed_cut (l l' : Text) (hp : l' <+: l) (h : asciiLed l = true) :
    asciiLed l' = true := by
  obtain ⟨t,rfl⟩ := hp
  induction l' with
  | nil => rfl
  | cons c l' ih =>
    by_cases hc : isWhitespace c = true
    · simp only [asciiLed, List.cons_append, List.takeWhile_cons, hc, if_true, List.all_cons,
        Bool.and_eq_true] at h ⊢
      exact ⟨h.1,ih h.2⟩
    · simp [asciiLed, hc]

theorem rewritten_ascii (key value l : Text) (hp : Plain key value) (h : asciiLed l = true) :
    asciiLed (rewritten key value l) = true := by
  rw [rewritten]
  split_ifs
  · rw [takeBytes_ascii l h]
    exact asciiLed_written _ key value (isBlank_takeWhile l) h hp
  · exact h

theorem edited_ascii (key value contents : Text) (hp : Plain key value) (h : AsciiLed contents) :
    AsciiLed (edited key value contents) := by
  unfold AsciiLed
  rw [lines_edited key value contents hp]
  apply endLines_all _ (fun l => asciiLed_cut l _ (prefix_stripCr l))
  apply editedLines_all
  · exact fun l hl => rewritten_ascii key value l hp (h l hl)
  · rfl
  · exact asciiLed_written [] key value rfl rfl hp

/-- Under ASCII indentation an upsert completes, and keeps the indentation. -/
theorem upsertKey_ascii (contents key value : Text) (hp : Plain key value)
    (h : AsciiLed contents) :
    ∃ out, upsertKey contents key value = some out ∧ AsciiLed out :=
  ⟨_,(upsertKey_iff contents key value _).mpr ⟨allSound_ascii contents h,rfl⟩,
    edited_ascii key value contents hp h⟩

end RlStatsApi.LineCuts
