import Mathlib.Data.List.DropRight
import Mathlib.Tactic.SplitIfs

/-!
# Unicode white space, trimming and lines of text

A text is a list of characters. Lines end at a line feed, and one carriage
return before it belongs to the ending; a last line without an ending is
kept as it is, and an empty last piece is no line. Writing the lines of a
text back with plain line feeds is therefore not the identity, but it does
not change what a reader of the lines sees, as long as the reader overlooks
empty lines and one trailing carriage return.
-/

set_option autoImplicit false

namespace RlStatsApi.TextLines

abbrev Text := List Char

/-- The characters with the Unicode property White_Space. -/
def isWhitespace (c : Char) : Bool :=
  let n := c.toNat
  (9 ≤ n && n ≤ 13) || n == 32 || n == 133 || n == 160 || n == 5760 ||
    (8192 ≤ n && n ≤ 8202) || n == 8232 || n == 8233 || n == 8239 || n == 8287 || n == 12288

def trimStart (s : Text) : Text := s.dropWhile isWhitespace

def trimEnd (s : Text) : Text := s.rdropWhile isWhitespace

def trim (s : Text) : Text := trimEnd (trimStart s)

def isBlank (s : Text) : Bool := s.all isWhitespace

def eqIgnoreAsciiCase (s t : Text) : Bool := s.map Char.toLower == t.map Char.toLower

/-- The two sides of the first occurrence of a separator. -/
def splitOnce (sep : Char) : Text → Option (Text × Text)
  | [] => none
  | c::s => if c = sep then some ([],s) else (splitOnce sep s).map (fun p => (c::p.1,p.2))

def stripCr (s : Text) : Text := if s.getLast? = some '\r' then s.dropLast else s

/-- From the pieces between line feeds to lines. -/
def endLines : List Text → List Text
  | [] => []
  | [l] => if l = [] then [] else [l]
  | l::l'::ls => stripCr l::endLines (l'::ls)

def lines (s : Text) : List Text := endLines (s.splitOn '\n')

def joinLines (ls : List Text) : Text := ['\n'].intercalate ls

theorem trimEnd_append (s w : Text) (hw : isBlank w = true) : trimEnd (s++w) = trimEnd s := by
  induction w using List.reverseRecOn with
  | nil => simp
  | append_singleton w c ih =>
    simp only [isBlank, List.all_append, List.all_cons, List.all_nil, Bool.and_true,
      Bool.and_eq_true] at hw
    rw [← List.append_assoc, trimEnd, List.rdropWhile_concat_pos _ _ _ hw.2]
    exact ih hw.1

theorem trimStart_append (w s : Text) (hw : isBlank w = true) : trimStart (w++s) = trimStart s := by
  rw [trimStart, List.dropWhile_append_of_pos]
  · rfl
  · simpa [isBlank] using hw

theorem trim_blank_append (w s : Text) (hw : isBlank w = true) : trim (w++s) = trim s := by
  rw [trim, trimStart_append w s hw, trim]

/-- Leading white space first: on a text that keeps a visible character the
order of the two trimmings does not matter. -/
theorem trim_append_blank (s w : Text) (hw : isBlank w = true) : trim (s++w) = trim s := by
  induction s with
  | nil =>
    have h := trim_blank_append w [] hw
    rwa [List.append_nil] at h
  | cons c s ih =>
    by_cases hc : isWhitespace c = true
    · simpa [trim, trimStart, hc] using ih
    · have h1 : trimStart (c::s) = c::s := by simp [trimStart, hc]
      have h2 : trimStart (c::s++w) = c::s++w := by simp [trimStart, hc]
      rw [trim, trim, h1, h2, trimEnd_append _ _ hw]

theorem trim_eq_self (s : Text) (h1 : ∀ c, s.head? = some c → isWhitespace c = false)
    (h2 : ∀ c, s.getLast? = some c → isWhitespace c = false) : trim s = s := by
  cases s with
  | nil => rfl
  | cons c s =>
    have hs : trimStart (c::s) = c::s := by simp [trimStart, h1 c rfl]
    rw [trim, hs, trimEnd, List.rdropWhile_eq_self_iff]
    intro hl
    have h := h2 _ (List.getLast?_eq_some_getLast hl)
    simp [h]

theorem trim_head (s : Text) (c : Char) (h : (trim s).head? = some c) : isWhitespace c = false := by
  obtain ⟨t,ht⟩ := List.head?_eq_some_iff.mp h
  obtain ⟨r,hr⟩ : trim s <+: trimStart s := List.rdropWhile_prefix _ _
  rw [ht] at hr
  have hd := List.head?_dropWhile_not isWhitespace s
  have hs : s.dropWhile isWhitespace = c::t++r := hr.symm
  simpa [hs] using hd

theorem trim_last (s : Text) (c : Char) (h : (trim s).getLast? = some c) :
    isWhitespace c = false := by
  have hne : trim s ≠ [] := by
    intro he
    simp [he] at h
  have hl : ¬ isWhitespace ((trim s).getLast hne) = true :=
    List.rdropWhile_last_not isWhitespace (trimStart s) hne
  rw [List.getLast?_eq_some_getLast hne] at h
  cases h
  simpa using hl

theorem stripCr_append (s : Text) : s = stripCr s ∨ s = stripCr s++['\r'] := by
  unfold stripCr
  split_ifs with h
  · exact Or.inr (List.dropLast_append_getLast? _ h).symm
  · exact Or.inl rfl

theorem prefix_stripCr (s : Text) : stripCr s <+: s := by
  unfold stripCr
  split_ifs
  · exact List.dropLast_prefix s
  · exact List.prefix_refl s

theorem trim_stripCr (s : Text) : trim (stripCr s) = trim s := by
  rcases stripCr_append s with h | h
  · rw [← h]
  · conv_rhs => rw [h]
    exact (trim_append_blank _ _ (by decide)).symm

/-- Ending the lines does not change what is read from them. -/
theorem filterMap_endLines {β : Type*} (f : Text → Option β)
    (hcr : ∀ l, f (stripCr l) = f l) (hnil : f [] = none) (ls : List Text) :
    (endLines ls).filterMap f = ls.filterMap f := by
  induction ls with
  | nil => rfl
  | cons l ls ih =>
    cases ls with
    | nil =>
      by_cases h : l = []
      · simp [endLines, h, hnil]
      · simp [endLines, h]
    | cons l' ls =>
      rw [endLines, List.filterMap_cons, List.filterMap_cons, ih, hcr]

theorem splitOnce_append (sep : Char) (s t : Text) (hs : sep ∉ s) :
    splitOnce sep (s++sep::t) = some (s,t) := by
  induction s with
  | nil => simp [splitOnce]
  | cons c s ih =>
    simp only [List.mem_cons, not_or] at hs
    simp [splitOnce, Ne.symm hs.1, ih hs.2]

/-- Texts that agree on their last separator agree on both sides of it. -/
theorem split_at_last (sep : Char) (a b s t : Text) (hs : sep ∉ s) (ht : sep ∉ t)
    (h : a++sep::s = b++sep::t) : a = b ∧ s = t := by
  have hr : s.reverse++sep::a.reverse = t.reverse++sep::b.reverse := by
    simpa using congrArg List.reverse h
  have hp := splitOnce_append sep s.reverse a.reverse (by simpa using hs)
  rw [hr, splitOnce_append sep t.reverse b.reverse (by simpa using ht)] at hp
  simp only [Option.some.injEq, Prod.mk.injEq, List.reverse_inj] at hp
  exact ⟨hp.2.symm,hp.1.symm⟩

theorem no_feed_stripCr (l : Text) (h : '\n' ∉ l) : '\n' ∉ stripCr l :=
  fun hm => h ((prefix_stripCr l).subset hm)

/-- What holds of the pieces holds of the lines, if a carriage return more
or less at the end does not matter. -/
theorem endLines_all (p : Text → Prop) (hcr : ∀ l, p l → p (stripCr l)) (ls : List Text)
    (h : ∀ l ∈ ls, p l) : ∀ l ∈ endLines ls, p l := by
  induction ls with
  | nil => simp [endLines]
  | cons l ls ih =>
    cases ls with
    | nil =>
      by_cases hl : l = []
      · simp [endLines, hl]
      · simpa [endLines, hl] using h
    | cons l' ls =>
      intro x hx
      rw [endLines] at hx
      rcases List.mem_cons.mp hx with rfl | hx
      · exact hcr l (h l (by simp))
      · exact ih (fun y hy => h y (by simp [List.mem_cons.mp hy])) x hx

theorem not_mem_splitOn (sep : Char) (s : Text) : ∀ l ∈ s.splitOn sep, sep ∉ l := by
  induction s with
  | nil => simp [List.splitOn_nil]
  | cons c s ih =>
    rw [List.splitOn_cons_eq_if_modifyHead]
    by_cases hc : c = sep
    · simpa [hc] using ih
    · obtain ⟨p,ps,hp⟩ := List.exists_cons_of_ne_nil (List.splitOn_ne_nil sep s)
      rw [hp] at ih ⊢
      simp only [beq_iff_eq, hc, if_false, List.modifyHead_cons, List.mem_cons]
      rintro l (rfl | hl)
      · simpa [Ne.symm hc] using ih p (by simp)
      · exact ih l (by simp [hl])

theorem mem_of_mem_splitOn (sep : Char) (s : Text) : ∀ l ∈ s.splitOn sep, ∀ c ∈ l, c ∈ s := by
  induction s with
  | nil => simp [List.splitOn_nil]
  | cons c s ih =>
    rw [List.splitOn_cons_eq_if_modifyHead]
    by_cases hc : c = sep
    · simp only [hc, beq_self_eq_true, if_true, List.mem_cons]
      rintro l (rfl | hl) x hx
      · cases hx
      · exact Or.inr (ih l hl x hx)
    · obtain ⟨p,ps,hp⟩ := List.exists_cons_of_ne_nil (List.splitOn_ne_nil sep s)
      rw [hp] at ih ⊢
      simp only [beq_iff_eq, hc, if_false, List.modifyHead_cons, List.mem_cons]
      rintro l (rfl | hl) x hx
      · rcases List.mem_cons.mp hx with rfl | hx
        · exact Or.inl rfl
        · exact Or.inr (ih p List.mem_cons_self x hx)
      · exact Or.inr (ih l (List.mem_cons_of_mem p hl) x hx)

theorem no_feed_splitOn (s : Text) : ∀ l ∈ s.splitOn '\n', '\n' ∉ l := not_mem_splitOn '\n' s

theorem no_feed_lines (s : Text) : ∀ l ∈ lines s, '\n' ∉ l :=
  endLines_all _ no_feed_stripCr _ (no_feed_splitOn s)

/-- Reading back lines that were joined. -/
theorem lines_joinLines (ls : List Text) (h : ∀ l ∈ ls, '\n' ∉ l) (hne : ls ≠ []) :
    lines (joinLines ls) = endLines ls := by
  rw [lines, joinLines, List.splitOn_intercalate '\n' h hne]

/-! ## Line endings -/

/-- The lines of a text with a plain line feed between any two. -/
def relined (s : Text) : Text := joinLines (lines s)

theorem endLines_nil_iff (l : Text) (ls : List Text) : endLines (l::ls) = [] ↔ l = [] ∧ ls = [] := by
  cases ls with
  | nil => by_cases hl : l = [] <;> simp [endLines, hl]
  | cons l' ls => simp [endLines]

theorem stripCr_eq_self_iff (l : Text) : stripCr l = l ↔ l.getLast? ≠ some '\r' := by
  unfold stripCr
  split_ifs with h
  · have hne : l ≠ [] := by
      rintro rfl
      cases h
    simp only [h, ne_eq, not_true_eq_false, iff_false]
    intro he
    have hlen := congrArg List.length he
    have hpos := List.length_pos_of_ne_nil hne
    rw [List.length_dropLast] at hlen
    omega
  · simp [h]

/-- Pieces that agree on their first line feed agree on both sides of it. -/
theorem split_at_feed (a b s t : Text) (ha : '\n' ∉ a) (hb : '\n' ∉ b)
    (h : a++ '\n'::s = b++ '\n'::t) : a = b ∧ s = t := by
  have hs := splitOnce_append '\n' a s ha
  rw [h, splitOnce_append '\n' b t hb] at hs
  cases hs
  exact ⟨rfl,rfl⟩

/-- A line ended by both characters is the first one or a later one. -/
theorem crlf_after (l t : Text) (hl : '\n' ∉ l) :
    ['\r','\n'] <:+: l++ '\n'::t ↔ l.getLast? = some '\r' ∨ ['\r','\n'] <:+: t := by
  constructor
  · rintro ⟨a,b,h⟩
    have h' : (a++['\r'])++ '\n'::b = l++ '\n'::t := by simpa using h
    by_cases ha : '\n' ∈ a
    · obtain ⟨a1,a2,rfl,ha1⟩ := List.eq_append_cons_of_mem ha
      have h'' : a1++ '\n'::(a2++['\r','\n']++b) = l++ '\n'::t := by simpa using h
      obtain ⟨_,rfl⟩ := split_at_feed _ _ _ _ ha1 hl h''
      exact .inr ⟨a2,b,rfl⟩
    · obtain ⟨rfl,_⟩ := split_at_feed _ _ _ _ (by simp [ha]) hl h'
      exact .inl (by simp)
  · rintro (h | ⟨a,b,rfl⟩)
    · refine ⟨l.dropLast,t,?_⟩
      have hd := List.dropLast_append_getLast? _ h
      conv_rhs => rw [← hd]
      simp
    · exact ⟨l++ '\n'::a,b,by simp⟩

theorem joinLines_cons (l : Text) (ls : List Text) (h : ls ≠ []) :
    joinLines (l::ls) = l++ '\n'::joinLines ls := by
  rw [joinLines, List.intercalate_cons_of_ne_nil h, List.append_assoc]
  rfl

theorem joinLines_nonempty (ls : List Text) (h : endLines ls ≠ []) : joinLines ls ≠ [] := by
  cases ls with
  | nil => exact absurd rfl h
  | cons l ls =>
    cases ls with
    | nil =>
      intro hj
      have hl : l = [] := by simpa [joinLines] using hj
      exact h ((endLines_nil_iff l []).mpr ⟨hl,rfl⟩)
    | cons l' ls => simp [joinLines_cons]

theorem unended (l : Text) (hl : '\n' ∉ l) :
    ¬ ['\r','\n'] <:+: l ∧ l.getLast? ≠ some '\n' := by
  constructor
  · exact fun hi => hl (hi.subset (by simp))
  · exact fun hlast => hl (List.mem_of_getLast? hlast)

/-- Ending the pieces changes none of their line feeds exactly when no piece
loses a carriage return and the last is not empty. -/
theorem joinLines_endLines_iff (ls : List Text) (h : ∀ l ∈ ls, '\n' ∉ l) (hne : ls ≠ []) :
    joinLines (endLines ls) = joinLines ls ↔
      ¬ ['\r','\n'] <:+: joinLines ls ∧ (joinLines ls).getLast? ≠ some '\n' := by
  induction ls with
  | nil => exact absurd rfl hne
  | cons l ls ih =>
    have hl : '\n' ∉ l := h l (by simp)
    cases ls with
    | nil =>
      have hj : joinLines [l] = l := by simp [joinLines]
      have he : joinLines (endLines [l]) = l := by
        by_cases hn : l = [] <;> simp [endLines, joinLines, hn]
      rw [he, hj]
      exact iff_of_true rfl (unended l hl)
    | cons l' ls =>
      have ih := ih (fun x hx => h x (by simp [List.mem_cons.mp hx])) (by simp)
      rw [joinLines_cons l _ (by simp), crlf_after l _ hl, endLines]
      by_cases ht : endLines (l'::ls) = []
      · -- The text ends in a line feed, which the joined lines have not.
        obtain ⟨rfl,rfl⟩ := (endLines_nil_iff l' ls).mp ht
        have hlen := (prefix_stripCr l).length_le
        constructor
        · intro he
          have := congrArg List.length he
          simp [ht, joinLines] at this
          omega
        · rintro ⟨_,hlast⟩
          exact absurd (by simp [joinLines]) hlast
      · have hlast : (l++ '\n'::joinLines (l'::ls)).getLast? = (joinLines (l'::ls)).getLast? := by
          obtain ⟨c,t,hc⟩ := List.exists_cons_of_ne_nil (joinLines_nonempty _ ht)
          rw [hc, List.getLast?_append_of_ne_nil _ (by simp), List.getLast?_cons_cons]
        rw [joinLines_cons _ _ ht, hlast, not_or]
        constructor
        · intro he
          obtain ⟨hs,hrest⟩ := split_at_feed _ _ _ _ (no_feed_stripCr l hl) hl he
          obtain ⟨h1,h2⟩ := ih.mp hrest
          exact ⟨⟨(stripCr_eq_self_iff l).mp hs,h1⟩,h2⟩
        · rintro ⟨⟨hs,h1⟩,h2⟩
          rw [(stripCr_eq_self_iff l).mpr hs, ih.mpr ⟨h1,h2⟩]

theorem relined_iff (s : Text) :
    relined s = s ↔ ¬ ['\r','\n'] <:+: s ∧ s.getLast? ≠ some '\n' := by
  have h := joinLines_endLines_iff (s.splitOn '\n') (no_feed_splitOn s) (List.splitOn_ne_nil '\n' s)
  have hs : joinLines (s.splitOn '\n') = s := List.intercalate_splitOn '\n'
  rwa [hs] at h

end RlStatsApi.TextLines
