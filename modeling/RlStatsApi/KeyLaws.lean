import RlStatsApi.ClientConfig
import RlStatsApi.LineCuts

/-!
# Reading back a written key

Under ASCII indentation an upsert and a lookup are a lens on the text: the
key has the value that was written, on whichever of its lines, and every
other key has the value it had.
-/

set_option autoImplicit false

namespace RlStatsApi.KeyLaws
open RlStatsApi.TextLines RlStatsApi.KeyedItems RlStatsApi.IniText RlStatsApi.LineCuts
open RlStatsApi.ClientConfig

theorem plain_key (key value : Text) (hk : key = portKey ∨ key = rateKey)
    (ht : trim value = value) (hf : '\n' ∉ value) : Plain key value := by
  rcases hk with rfl | rfl
  · exact ⟨by decide,by decide,by decide,by decide,ht,hf⟩
  · exact ⟨by decide,by decide,by decide,by decide,ht,hf⟩

section Edited

variable {contents key value : Text} (hp : Plain key value) (ha : AsciiLed contents)
include hp ha

theorem items_edited : items (edited key value contents) = upsert norm key value (items contents) :=
  upsertKey_items contents key value _ hp
    ((upsertKey_iff contents key value _).mpr ⟨allSound_ascii contents ha,rfl⟩)

theorem find_edited : findStringValue (edited key value contents) key = some (some value) := by
  rw [findStringValue_ascii _ key (edited_ascii key value contents hp ha), items_edited hp ha,
    value_upsert]

theorem find_edited_other (key' : Text) (hk : eqIgnoreAsciiCase key' key = false) :
    findStringValue (edited key value contents) key' = findStringValue contents key' := by
  have hn : norm key' ≠ norm key := by
    rwa [Ne, ← eqIgnoreAsciiCase_norm, Bool.not_eq_true]
  rw [findStringValue_ascii _ key' (edited_ascii key value contents hp ha), items_edited hp ha,
    value_upsert_other norm key key' value _ hn, findStringValue_ascii contents key' ha]

end Edited

/-- If the line assigns the key, then it assigns this value. -/
def Assigns (key value line : Text) : Prop :=
  ∀ lhs rhs, parts (trim line) = some (lhs,rhs) → eqIgnoreAsciiCase lhs key = true → rhs = value

theorem assigns_written (indent key value : Text) (hb : isBlank indent = true)
    (hp : Plain key value) : Assigns key value (indent++assignment key value) := by
  intro lhs rhs h _
  rw [trim_blank_append indent _ hb, trim_assignment key value hp, parts_assignment key value hp] at h
  cases h
  rfl

theorem assigns_rewritten (key value l : Text) (hp : Plain key value) (h : asciiLed l = true) :
    Assigns key value (rewritten key value l) := by
  rw [rewritten]
  split_ifs with hk
  · rw [takeBytes_ascii l h]
    exact assigns_written _ key value (isBlank_takeWhile l) hp
  · intro lhs rhs hl he
    rw [assignsKey, hl] at hk
    exact absurd he hk

theorem assigns_edited (contents key value : Text) (hp : Plain key value) (ha : AsciiLed contents) :
    ∀ l ∈ lines (edited key value contents), Assigns key value l := by
  rw [lines_edited key value contents hp]
  apply endLines_all
  · intro l hl
    rwa [Assigns, trim_stripCr]
  · apply editedLines_all
    · exact fun l hl => assigns_rewritten key value l hp (ha l hl)
    · exact fun lhs rhs h => by cases h
    · exact assigns_written [] key value rfl hp

/-- The value written is found again, no line assigns the key another one, and
the other keys keep their values. -/
theorem upsert_then_find (contents key value : Text) (ha : AsciiLed contents)
    (hk : key = portKey ∨ key = rateKey) (ht : trim value = value) (hf : '\n' ∉ value) :
    ∃ out, upsertKey contents key value = some out ∧
      findStringValue out key = some (some value) ∧
      (∀ line ∈ lines out, ∃ q, splitKeyValue line = some q ∧ ∀ lhs rhs indent,
        q = some (lhs,rhs,indent) → eqIgnoreAsciiCase lhs key = true → rhs = value) ∧
      ∀ key', eqIgnoreAsciiCase key' key = false →
        ∃ r, findStringValue contents key' = some r ∧ findStringValue out key' = some r := by
  have hp := plain_key key value hk ht hf
  refine ⟨edited key value contents,
    (upsertKey_iff contents key value _).mpr ⟨allSound_ascii contents ha,rfl⟩,
    find_edited hp ha,?_,?_⟩
  · intro line hl
    have hs := sound_ascii line (edited_ascii key value contents hp ha line hl)
    refine ⟨_,splitKeyValue_sound line hs,?_⟩
    intro lhs rhs indent hq
    obtain ⟨⟨l,r⟩,hparts,he⟩ := Option.map_eq_some_iff.mp hq
    cases he
    exact assigns_edited contents key value hp ha line hl l r hparts
  · intro key' hk'
    rw [find_edited_other hp ha key' hk']
    exact ⟨_,findStringValue_ascii contents key' ha,findStringValue_ascii contents key' ha⟩

/-- Two assignments in different letter case, one of them indented. -/
theorem repeated_port_found : ∃ out,
    upsertKey "[A]\r\n port = 1\nPORT=2\nWebPort=3".toList portKey ['4'] = some out ∧
      findStringValue out portKey = some (some ['4']) := by
  obtain ⟨out,h,hv,_⟩ := upsert_then_find "[A]\r\n port = 1\nPORT=2\nWebPort=3".toList portKey ['4']
    (by decide) (.inl rfl) (by decide) (by decide)
  exact ⟨out,h,hv⟩

end RlStatsApi.KeyLaws
