import RlStatsApi.ConfigPolicy

/-!
# Calls that return

A call returns when every line it cuts is cut soundly: those that its lookups
scan, and all lines of a text that it edits. Rewritten lines keep only the
indentation before the cut, and are cut again when the text is read back.
-/

set_option autoImplicit false

namespace RlStatsApi.ReturningCalls
open RlStatsApi.TextLines RlStatsApi.BinaryFloat RlStatsApi.Error RlStatsApi.IniText
open RlStatsApi.LineCuts RlStatsApi.ClientConfig RlStatsApi.ConfigPolicy

/-! ## What a call cuts -/

/-- The text with the port that a call leaves in it. -/
def portEdited (options : ClientOptions) (before : Text) : Text :=
  if WritesPort options before then edited portKey defaultPortText before else before

/-- The text that a call leaves. -/
def rateEdited (options : ClientOptions) (before : Text) : Text :=
  let mid := portEdited options before
  if WritesRate options mid then edited rateKey (rateText options) mid else mid

/-- The lines that are cut before the file is written. -/
structure Settles (options : ClientOptions) (before : Text) : Prop where
  port : options.portOverride = none → ScanSound portKey before
  portWritten : WritesPort options before → AllSound before
  rate : options.autoEnablePacketRate = true → ScanSound rateKey (portEdited options before)
  rateWritten : WritesRate options (portEdited options before) →
    AllSound (portEdited options before)

/-- The lines that are cut after it. -/
structure ReadsBack (options : ClientOptions) (before : Text) : Prop where
  rate : ScanSound rateKey (rateEdited options before)
  webPort : ScanSound webPortKey (rateEdited options before)

def Written (options : ClientOptions) (before : Text) : Prop :=
  WritesPort options before ∨ WritesRate options (portEdited options before)

theorem findU16Value_returns_iff (contents key : Text) :
    (∃ r, findU16Value contents key = some r) ↔ ScanSound key contents := by
  rw [← findStringValue_returns_iff]
  simp [findU16Value]

theorem findF32Value_returns_iff (contents key : Text) :
    (∃ r, findF32Value contents key = some r) ↔ ScanSound key contents := by
  rw [← findStringValue_returns_iff]
  simp [findF32Value]

theorem settlePort_returns_iff (options : ClientOptions) (ini : Text) :
    (∃ p, settlePort options ini = some p) ↔
      (options.portOverride = none → ScanSound portKey ini) ∧
      (WritesPort options ini → AllSound ini) := by
  constructor
  · rintro ⟨⟨port,after,written⟩,h⟩
    constructor
    · intro ho
      simp only [settlePort, ho] at h
      obtain ⟨found,hf,_⟩ := Option.bind_eq_some_iff.mp h
      exact (findU16Value_returns_iff ini portKey).mp ⟨found,hf⟩
    · intro hw
      obtain ⟨_,e⟩ := settlePort_edit options ini after port written h
      exact ((upsertKey_iff ini _ _ after).mp (e.writes hw).1).1
  · rintro ⟨hscan,hall⟩
    cases ho : options.portOverride with
    | some port => exact ⟨(port,ini,false),by simp [settlePort, ho]⟩
    | none =>
      obtain ⟨found,hf⟩ := (findU16Value_returns_iff ini portKey).mpr (hscan ho)
      have he : found.filter (fun port => decide (0 < port)) = portAt ini := by
        rw [findU16Value_at ini portKey found hf, portAt]
      simp only [settlePort, ho, hf, Option.bind_some, he]
      cases hp : portAt ini with
      | some port => exact ⟨_,rfl⟩
      | none =>
        have hu := (upsertKey_iff ini portKey defaultPortText _).mpr ⟨hall ⟨ho,hp⟩,rfl⟩
        rw [hu]
        exact ⟨_,rfl⟩

theorem settleRate_returns_iff (options : ClientOptions) (ini : Text) :
    (∃ r, settleRate options ini = some r) ↔
      (options.autoEnablePacketRate = true → ScanSound rateKey ini) ∧
      (WritesRate options ini → AllSound ini) := by
  constructor
  · rintro ⟨⟨rate,after,written⟩,h⟩
    constructor
    · intro ha
      simp only [settleRate, ha, if_true] at h
      obtain ⟨found,hf,_⟩ := Option.bind_eq_some_iff.mp h
      exact (findF32Value_returns_iff ini rateKey).mp ⟨found,hf⟩
    · intro hw
      have e := settleRate_edit options ini after rate written h
      exact ((upsertKey_iff ini _ _ after).mp (e.writes hw).1).1
  · rintro ⟨hscan,hall⟩
    by_cases ha : options.autoEnablePacketRate = true
    · obtain ⟨found,hf⟩ := (findF32Value_returns_iff ini rateKey).mpr (hscan ha)
      simp only [settleRate, ha, if_true, hf, Option.bind_some]
      rw [findF32Value_at ini rateKey found hf]
      split_ifs with hs
      · have hu := (upsertKey_iff ini rateKey (rateText options) _).mpr ⟨hall ⟨ha,hs⟩,rfl⟩
        rw [hu]
        exact ⟨_,rfl⟩
      · exact ⟨_,rfl⟩
    · exact ⟨_,by rw [settleRate, if_neg ha]⟩

theorem edit_edited {b : Prop} [Decidable b] {key v before after : Text} {written : Bool}
    (e : Edit b key v before after written) :
    after = (if b then edited key v before else before) ∧ (written = true ↔ b) := by
  split_ifs with hb
  · obtain ⟨hu,hw⟩ := e.writes hb
    exact ⟨((upsertKey_iff before key v after).mp hu).2,by simp [hw, hb]⟩
  · obtain ⟨he,hw⟩ := e.idle hb
    exact ⟨he,by simp [hw, hb]⟩

theorem settle_edited (options : ClientOptions) (before : Text) (s : Settled)
    (h : settle options before = some s) :
    s.ini = rateEdited options before ∧ (s.mutated = true ↔ Written options before) := by
  obtain ⟨⟨port,mid,w⟩,hp,h⟩ := Option.bind_eq_some_iff.mp h
  obtain ⟨⟨rate,after,w'⟩,hr,rfl⟩ := Option.map_eq_some_iff.mp h
  obtain ⟨rfl,hw⟩ := edit_edited (settlePort_edit options before mid port w hp).2
  obtain ⟨rfl,hw'⟩ := edit_edited (settleRate_edit options _ after rate w' hr)
  constructor
  · rfl
  · rw [Bool.or_eq_true, hw, hw']
    exact Iff.rfl

theorem settle_returns_iff (options : ClientOptions) (before : Text) :
    (∃ s, settle options before = some s) ↔ Settles options before := by
  constructor
  · rintro ⟨s,h⟩
    obtain ⟨⟨port,mid,w⟩,hp,h⟩ := Option.bind_eq_some_iff.mp h
    obtain ⟨r,hr,_⟩ := Option.map_eq_some_iff.mp h
    have hmid := (edit_edited (settlePort_edit options before mid port w hp).2).1
    obtain ⟨h1,h2⟩ := (settlePort_returns_iff options before).mp ⟨_,hp⟩
    obtain ⟨h3,h4⟩ := (settleRate_returns_iff options mid).mp ⟨r,hr⟩
    rw [hmid] at h3 h4
    exact ⟨h1,h2,h3,h4⟩
  · intro h
    obtain ⟨⟨port,mid,w⟩,hp⟩ := (settlePort_returns_iff options before).mpr ⟨h.port,h.portWritten⟩
    have hmid := (edit_edited (settlePort_edit options before mid port w hp).2).1
    obtain ⟨r,hr⟩ := (settleRate_returns_iff options (portEdited options before)).mpr
      ⟨h.rate,h.rateWritten⟩
    have hmid' : mid = portEdited options before := hmid
    rw [← hmid'] at hr
    exact ⟨_,by rw [settle, hp, Option.bind_some, hr, Option.map_some]⟩

theorem readBack_returns_iff (ini : Text) (rate : F32) :
    (∃ back, readBack ini rate = some back) ↔ ScanSound rateKey ini ∧ ScanSound webPortKey ini := by
  rw [← findF32Value_returns_iff, ← findU16Value_returns_iff]
  constructor
  · rintro ⟨back,h⟩
    obtain ⟨found,hf,h⟩ := Option.bind_eq_some_iff.mp h
    obtain ⟨web,hw,_⟩ := Option.map_eq_some_iff.mp h
    exact ⟨⟨found,hf⟩,web,hw⟩
  · rintro ⟨⟨found,hf⟩,web,hw⟩
    exact ⟨_,by rw [readBack, hf, Option.bind_some, hw, Option.map_some]⟩

theorem settle_ascii (options : ClientOptions) (before : Text) (ha : AsciiLed before) :
    ∃ s, settle options before = some s := by
  have hmid : AsciiLed (portEdited options before) := by
    rw [portEdited]
    split_ifs
    · exact edited_ascii _ _ _ plain_port ha
    · exact ha
  rw [settle_returns_iff]
  constructor
  · exact fun _ => scanSound_ascii _ _ ha
  · exact fun _ => allSound_ascii _ ha
  · exact fun _ => scanSound_ascii _ _ hmid
  · exact fun _ => allSound_ascii _ hmid

/-- On a file with ASCII indentation every call returns, and leaves such a file. -/
theorem prepare_completes (options : ClientOptions) (path : IniPath) (before : Text)
    (hp : options.statsApiIniPath = some path) (ha : AsciiLed before) :
    ∃ r after, prepareConnectionConfig options (Disk.holding before) = (some r,some after) ∧
      AsciiLed after := by
  obtain ⟨s,hs⟩ := settle_ascii options before ha
  have ha' := settled_ascii hs ha
  rw [prepare_existing options path before hp, hs]
  simp only [readBack, findF32Value_ascii s.ini rateKey ha', findU16Value_ascii s.ini webPortKey ha',
    Option.bind_some, Option.map_some]
  exact ⟨_,s.ini,rfl,ha'⟩

/-! ## A call on any disk -/

/-- The text that a call reads, if it comes to read one. -/
def contentsRead (path : IniPath) (disk : Disk) : Option Text :=
  match ensureIniFileExists path disk with
  | (.error _,_) => none
  | (.ok (),contents) => (readConfigFile path disk contents).toOption

/-- A text on which a call comes to an end: it is cut soundly, and so is the
text left, unless that cannot be written. -/
def Uncrashed (options : ClientOptions) (disk : Disk) (before : Text) : Prop :=
  Settles options before ∧
    ((Written options before ∧ disk.updateFails ≠ none) ∨ ReadsBack options before)

theorem prepare_unread (options : ClientOptions) (path : IniPath) (disk : Disk)
    (hp : options.statsApiIniPath = some path) (hn : contentsRead path disk = none) :
    ∃ e left, prepareConnectionConfig options disk = (some (.error e),left) := by
  unfold contentsRead at hn
  simp only [prepareConnectionConfig, hp]
  rcases he : ensureIniFileExists path disk with ⟨e | _,contents⟩
  · exact ⟨e,contents,rfl⟩
  · simp only [he] at hn ⊢
    cases hr : readConfigFile path disk contents with
    | error e => exact ⟨e,contents,rfl⟩
    | ok ini =>
      rw [hr] at hn
      cases hn

theorem prepare_read (options : ClientOptions) (path : IniPath) (disk : Disk) (before : Text)
    (hp : options.statsApiIniPath = some path) (hc : contentsRead path disk = some before) :
    (∃ r left, prepareConnectionConfig options disk = (some r,left)) ↔
      ∃ s, settle options before = some s ∧ ((s.mutated = true ∧ disk.updateFails ≠ none) ∨
        ∃ back, readBack s.ini s.rate = some back) := by
  unfold contentsRead at hc
  simp only [prepareConnectionConfig, hp]
  rcases he : ensureIniFileExists path disk with ⟨e | _,contents⟩
  · simp [he] at hc
  · simp only [he] at hc ⊢
    cases hr : readConfigFile path disk contents with
    | error e =>
      rw [hr] at hc
      cases hc
    | ok ini =>
      rw [hr] at hc
      cases hc
      simp only
      cases hs : settle options before with
      | none => simp
      | some s =>
        simp only [Option.some.injEq, exists_eq_left']
        cases hm : s.mutated with
        | false => simp
        | true =>
          cases hu : disk.updateFails with
          | none => simp [writeConfigFile]
          | some left => simp [writeConfigFile]

/-- A line is cut exactly where its leading white space begins with as many
bytes as it has characters, and a call returns exactly when the lines it
cuts are so. -/
theorem returns_iff_cuts_sound (options : ClientOptions) (disk : Disk) (line : Text) :
    ((∃ q, splitKeyValue line = some q) ↔ ∃ cut, cut <+: line.takeWhile isWhitespace ∧
        byteLength cut = (line.takeWhile isWhitespace).length) ∧
      ((∃ r left, prepareConnectionConfig options disk = (some r,left)) ↔
        ∀ path before, options.statsApiIniPath = some path →
          contentsRead path disk = some before → Uncrashed options disk before) := by
  constructor
  · rw [splitKeyValue_returns_iff, sound_iff]
  · constructor
    · intro h path before hp hc
      obtain ⟨s,hs,hend⟩ := (prepare_read options path disk before hp hc).mp h
      obtain ⟨hini,hm⟩ := settle_edited options before s hs
      refine ⟨(settle_returns_iff options before).mp ⟨s,hs⟩,?_⟩
      rw [readBack_returns_iff, hini, hm] at hend
      exact hend.imp id (fun hb => ⟨hb.1,hb.2⟩)
    · intro h
      cases hp : options.statsApiIniPath with
      | none => exact ⟨_,_,by rw [prepareConnectionConfig, hp]⟩
      | some path =>
        cases hc : contentsRead path disk with
        | none =>
          obtain ⟨e,left,he⟩ := prepare_unread options path disk hp hc
          exact ⟨_,left,he⟩
        | some before =>
          obtain ⟨hset,hend⟩ := h path before hp hc
          obtain ⟨s,hs⟩ := (settle_returns_iff options before).mpr hset
          obtain ⟨hini,hm⟩ := settle_edited options before s hs
          refine (prepare_read options path disk before hp hc).mpr ⟨s,hs,?_⟩
          rw [readBack_returns_iff, hini, hm]
          exact hend.imp id (fun hb => ⟨hb.rate,hb.webPort⟩)

def noBreakLed : Text := "\u00a0Port=1".toList

theorem no_break_space_crashes :
    prepareConnectionConfig {statsApiIniPath := some someIni} (Disk.holding noBreakLed) =
        (none,some noBreakLed) ∧
      noBreakLed ∈ lines noBreakLed ∧ splitKeyValue noBreakLed = none := by
  decide +kernel

def twoNoBreaks : Text := "\u00a0\u00a0Port=5\n Rate".toList

/-- Two characters of two bytes: the cut falls between them, and the second
is left to the trimming. -/
theorem two_no_break_spaces_return :
    (∃ q, splitKeyValue "\u00a0\u00a0Port=5".toList = some q) ∧
      ∃ r left, prepareConnectionConfig {statsApiIniPath := some someIni}
        (Disk.holding twoNoBreaks) = (some r,left) := by
  have h := returns_iff_cuts_sound {statsApiIniPath := some someIni} (Disk.holding twoNoBreaks)
    "\u00a0\u00a0Port=5".toList
  constructor
  · exact h.1.mpr ⟨['\u00a0'],by decide,by decide⟩
  · apply h.2.mpr
    intro path before hp hc
    cases hp
    cases hc
    refine ⟨⟨?_,?_,?_,?_⟩,.inr ⟨?_,?_⟩⟩ <;> decide +kernel

end RlStatsApi.ReturningCalls
