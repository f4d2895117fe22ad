import RlStatsApi.ClientConfig
import RlStatsApi.LineCuts

/-!
# What preparing a connection does to the file

A call edits at most two keys. What it writes and when is stated from the
file as it was: the lookups see its items, and each edit is an upsert of its
items. The results compare the configuration with the file that is left.
-/

set_option autoImplicit false

namespace RlStatsApi.ConfigPolicy
open RlStatsApi.TextLines RlStatsApi.BinaryFloat RlStatsApi.DecimalText RlStatsApi.Error
open RlStatsApi.KeyedItems RlStatsApi.IniText RlStatsApi.LineCuts RlStatsApi.ClientConfig

/-! ## The file before the call -/

def u16At (contents key : Text) : Option U16 :=
  (value norm key (items contents)).bind (parseUnsigned 65536)

def f32At (contents key : Text) : Option F32 :=
  (value norm key (items contents)).bind (parseFloat binary32)

/-- The valid port of the file. -/
def portAt (contents : Text) : Option U16 :=
  (u16At contents portKey).filter (fun port => decide (0 < port))

def effectivePort (options : ClientOptions) (contents : Text) : U16 :=
  (options.portOverride.or (portAt contents)).getD defaultPort

def WritesPort (options : ClientOptions) (contents : Text) : Prop :=
  options.portOverride = none ∧ portAt contents = none

def WritesRate (options : ClientOptions) (contents : Text) : Prop :=
  options.autoEnablePacketRate = true ∧ (options.setPacketRateOnlyWhenZero = true →
    ((f32At contents rateKey).getD (zero binary32)).le (zero binary32) = true)

instance (options : ClientOptions) (contents : Text) : Decidable (WritesPort options contents) :=
  inferInstanceAs (Decidable (_ ∧ _))

instance (options : ClientOptions) (contents : Text) : Decidable (WritesRate options contents) :=
  inferInstanceAs (Decidable (_ ∧ _))

theorem findU16Value_at (contents key : Text) (r : Option U16)
    (h : findU16Value contents key = some r) : r = u16At contents key := by
  obtain ⟨found,hf,rfl⟩ := Option.map_eq_some_iff.mp h
  rw [findStringValue_value contents key found hf, u16At]

theorem findF32Value_at (contents key : Text) (r : Option F32)
    (h : findF32Value contents key = some r) : r = f32At contents key := by
  obtain ⟨found,hf,rfl⟩ := Option.map_eq_some_iff.mp h
  rw [findStringValue_value contents key found hf, f32At]

theorem findU16Value_ascii (contents key : Text) (h : AsciiLed contents) :
    findU16Value contents key = some (u16At contents key) := by
  rw [findU16Value, findStringValue_ascii contents key h]
  rfl

theorem findF32Value_ascii (contents key : Text) (h : AsciiLed contents) :
    findF32Value contents key = some (f32At contents key) := by
  rw [findF32Value, findStringValue_ascii contents key h]
  rfl

theorem port_rate : norm rateKey ≠ norm portKey := by decide
theorem web_port : norm webPortKey ≠ norm portKey := by decide
theorem web_rate : norm webPortKey ≠ norm rateKey := by decide

/-! ## Edits -/

/-- A key is written if and only if `b`, and `written` says so. -/
structure Edit (b : Prop) (key v before after : Text) (written : Bool) : Prop where
  idle : ¬ b → after = before ∧ written = false
  writes : b → upsertKey before key v = some after ∧ written = true

theorem edit_unwritten {b : Prop} {key v before after : Text} {written : Bool}
    (e : Edit b key v before after written) (hw : written = false) : after = before := by
  by_cases hb : b
  · rw [(e.writes hb).2] at hw
    cases hw
  · exact (e.idle hb).1

section Edit

variable {b : Prop} {key v before after : Text} {written : Bool}
  (e : Edit b key v before after written) (hp : Plain key v)
include e hp

theorem edit_items (hb : b) : items after = upsert norm key v (items before) :=
  upsertKey_items before key v after hp (e.writes hb).1

theorem edit_value (hb : b) : value norm key (items after) = some v := by
  rw [edit_items e hp hb, value_upsert]

theorem edit_value_other (k : Text) (hk : norm k ≠ norm key) :
    value norm k (items after) = value norm k (items before) := by
  by_cases hb : b
  · rw [edit_items e hp hb, value_upsert_other norm key k v _ hk]
  · rw [(e.idle hb).1]

theorem edit_u16At_other (k : Text) (hk : norm k ≠ norm key) :
    u16At after k = u16At before k := by
  rw [u16At, u16At, edit_value_other e hp k hk]

theorem edit_f32At_other (k : Text) (hk : norm k ≠ norm key) :
    f32At after k = f32At before k := by
  rw [f32At, f32At, edit_value_other e hp k hk]

theorem edit_ascii (h : AsciiLed before) : AsciiLed after := by
  by_cases hb : b
  · obtain ⟨out,ho,ha⟩ := upsertKey_ascii before key v hp h
    rw [(e.writes hb).1] at ho
    cases ho
    exact ha
  · rw [(e.idle hb).1]
    exact h

/-- Section by section: the key has the new value where it is received. -/
theorem edit_valueIn (hb : b) (g : Option Text) :
    valueIn norm g key none (items after) =
      if Receives norm g key none (items before) then some v else none := by
  rw [edit_items e hp hb, valueIn_upsert]

theorem edit_valueIn_other (g : Option Text) (k : Text) (hk : norm k ≠ norm key) :
    valueIn norm g k none (items after) = valueIn norm g k none (items before) := by
  by_cases hb : b
  · rw [edit_items e hp hb, valueIn_upsert_other norm g key k v none _ hk]
  · rw [(e.idle hb).1]

theorem edit_receives_other (g : Option Text) (k : Text) (hk : norm k ≠ norm key) :
    Receives norm g k none (items after) ↔ Receives norm g k none (items before) := by
  by_cases hb : b
  · rw [edit_items e hp hb, receives_upsert_other norm g key k v none _ hk]
  · rw [(e.idle hb).1]

end Edit

/-! ## The two edits of a call -/

theorem settlePort_edit (options : ClientOptions) (ini after : Text) (port : U16) (written : Bool)
    (h : settlePort options ini = some (port,after,written)) :
    port = effectivePort options ini ∧
      Edit (WritesPort options ini) portKey defaultPortText ini after written := by
  unfold settlePort at h
  cases ho : options.portOverride with
  | some p =>
    simp only [ho] at h
    cases h
    have hw : ¬ WritesPort options ini := by simp [WritesPort, ho]
    exact ⟨by simp [effectivePort, ho],fun _ => ⟨rfl,rfl⟩,fun hb => absurd hb hw⟩
  | none =>
    simp only [ho] at h
    obtain ⟨found,hf,h⟩ := Option.bind_eq_some_iff.mp h
    have he : found.filter (fun port => decide (0 < port)) = portAt ini := by
      rw [findU16Value_at ini portKey found hf, portAt]
    rw [he] at h
    cases hp : portAt ini with
    | some p =>
      simp only [hp] at h
      cases h
      have hw : ¬ WritesPort options ini := by simp [WritesPort, hp]
      exact ⟨by simp [effectivePort, ho, hp],fun _ => ⟨rfl,rfl⟩,fun hb => absurd hb hw⟩
    | none =>
      simp only [hp] at h
      obtain ⟨out,hu,he⟩ := Option.map_eq_some_iff.mp h
      cases he
      exact ⟨by simp [effectivePort, ho, hp],fun hb => absurd ⟨ho,hp⟩ hb,fun _ => ⟨hu,rfl⟩⟩

theorem settleRate_edit (options : ClientOptions) (ini after : Text) (rate : F32) (written : Bool)
    (h : settleRate options ini = some (rate,after,written)) :
    Edit (WritesRate options ini) rateKey (rateText options) ini after written := by
  unfold settleRate at h
  by_cases ha : options.autoEnablePacketRate = true
  · simp only [ha, if_true] at h
    obtain ⟨found,hf,h⟩ := Option.bind_eq_some_iff.mp h
    rw [findF32Value_at ini rateKey found hf] at h
    split_ifs at h with hs
    · obtain ⟨out,hu,he⟩ := Option.map_eq_some_iff.mp h
      cases he
      exact ⟨fun hb => absurd ⟨ha,hs⟩ hb,fun _ => ⟨hu,rfl⟩⟩
    · cases h
      exact ⟨fun _ => ⟨rfl,rfl⟩,fun hb => absurd hb.2 hs⟩
  · rw [if_neg ha] at h
    cases h
    exact ⟨fun _ => ⟨rfl,rfl⟩,fun hb => absurd hb.1 ha⟩

/-- The text between the edits is that of the port alone, and the edit of the
rate is decided by the file as it was. -/
theorem settle_edits (options : ClientOptions) (ini : Text) (s : Settled)
    (h : settle options ini = some s) :
    s.port = effectivePort options ini ∧ ∃ mid w w',
      Edit (WritesPort options ini) portKey defaultPortText ini mid w ∧
      Edit (WritesRate options ini) rateKey (rateText options) mid s.ini w' ∧
      s.mutated = (w || w') := by
  obtain ⟨⟨port,mid,w⟩,hp,h⟩ := Option.bind_eq_some_iff.mp h
  obtain ⟨⟨rate,after,w'⟩,hr,rfl⟩ := Option.map_eq_some_iff.mp h
  obtain ⟨he,e⟩ := settlePort_edit options ini mid port w hp
  have hw : WritesRate options mid ↔ WritesRate options ini := by
    rw [WritesRate, WritesRate, edit_f32At_other e plain_port rateKey port_rate]
  have e' := settleRate_edit options mid after rate w' hr
  simp only [hw] at e'
  exact ⟨he,mid,w,w',e,e',rfl⟩

theorem settle_unmutated (options : ClientOptions) (ini : Text) (s : Settled)
    (h : settle options ini = some s) (hm : s.mutated = false) : s.ini = ini := by
  obtain ⟨_,mid,w,w',e,e',he⟩ := settle_edits options ini s h
  rw [hm, eq_comm, Bool.or_eq_false_iff] at he
  rw [edit_unwritten e' he.2, edit_unwritten e he.1]

section Settled

variable {options : ClientOptions} {ini : Text} {s : Settled}
  (h : settle options ini = some s)
include h

theorem settled_web : u16At s.ini webPortKey = u16At ini webPortKey := by
  obtain ⟨_,mid,w,w',e,e',_⟩ := settle_edits options ini s h
  rw [edit_u16At_other e' (plain_rate options) webPortKey web_rate,
    edit_u16At_other e plain_port webPortKey web_port]

theorem settled_port_kept (hw : ¬ WritesPort options ini) :
    value norm portKey (items s.ini) = value norm portKey (items ini) := by
  obtain ⟨_,mid,w,w',e,e',_⟩ := settle_edits options ini s h
  rw [edit_value_other e' (plain_rate options) portKey port_rate.symm, (e.idle hw).1]

theorem settled_port_written (hw : WritesPort options ini) :
    u16At s.ini portKey = some defaultPort := by
  obtain ⟨_,mid,w,w',e,e',_⟩ := settle_edits options ini s h
  rw [u16At, edit_value_other e' (plain_rate options) portKey port_rate.symm,
    edit_value e plain_port hw]
  exact parseUnsigned_toDigits 65536 defaultPort

theorem settled_rate_kept (hw : ¬ WritesRate options ini) :
    f32At s.ini rateKey = f32At ini rateKey := by
  obtain ⟨_,mid,w,w',e,e',_⟩ := settle_edits options ini s h
  rw [(e'.idle hw).1, edit_f32At_other e plain_port rateKey port_rate]

theorem settled_rate_text (hw : WritesRate options ini) :
    f32At s.ini rateKey = parseFloat binary32 (rateText options) := by
  obtain ⟨_,mid,w,w',e,e',_⟩ := settle_edits options ini s h
  rw [f32At, edit_value e' (plain_rate options) hw]
  rfl

theorem settled_rate_written (hw : WritesRate options ini) :
    ∃ rate, f32At s.ini rateKey = some rate := by
  rw [settled_rate_text h hw]
  exact formatRate_parses (clampRate options.packetSendRate)

theorem settled_ascii (ha : AsciiLed ini) : AsciiLed s.ini := by
  obtain ⟨_,mid,w,w',e,e',_⟩ := settle_edits options ini s h
  exact edit_ascii e' (plain_rate options) (edit_ascii e plain_port ha)

/-- The settled port is the one in the file, unless it is given. -/
theorem settled_port (ho : options.portOverride = none) :
    u16At s.ini portKey = some s.port ∧ 0 < s.port := by
  rw [(settle_edits options ini s h).1, effectivePort, ho]
  cases hp : portAt ini with
  | none =>
    rw [settled_port_written h ⟨ho,hp⟩]
    exact ⟨rfl,by decide⟩
  | some port =>
    have hw : ¬ WritesPort options ini := by simp [WritesPort, hp]
    obtain ⟨hu,hpos⟩ := Option.filter_eq_some_iff.mp hp
    rw [u16At, settled_port_kept h hw]
    exact ⟨hu,by simpa using hpos⟩

/-- Where the rate is kept automatically it is a number. -/
theorem settled_rate (ha : options.autoEnablePacketRate = true) :
    ∃ rate, f32At s.ini rateKey = some rate := by
  by_cases hw : WritesRate options ini
  · exact settled_rate_written h hw
  · rw [settled_rate_kept h hw]
    cases hf : f32At ini rateKey with
    | some rate => exact ⟨rate,rfl⟩
    | none =>
      refine absurd ⟨ha,fun _ => ?_⟩ hw
      rw [hf]
      decide

end Settled

/-- A call on a file that can be read and written leaves the settled text
there, also when the lines of that text can no longer be cut. -/
theorem prepare_existing (options : ClientOptions) (path : IniPath) (before : Text)
    (hp : options.statsApiIniPath = some path) :
    prepareConnectionConfig options (Disk.holding before) =
      match settle options before with
      | none => (none,some before)
      | some s => ((readBack s.ini s.rate).map (fun back =>
          conclude options (some path) s.port back.2 back.1 s.mutated),some s.ini) := by
  unfold prepareConnectionConfig
  simp only [hp, ensureIniFileExists, Disk.holding, readConfigFile]
  cases hs : settle options before with
  | none => rfl
  | some s =>
    have hw : (if s.mutated = true then writeConfigFile path none s.ini
        else (.ok (),some before)) = (.ok (),some s.ini) := by
      split_ifs with hm
      · rfl
      · rw [settle_unmutated options before s hs (by simpa using hm)]
    simp only [hw]

theorem prepare_returns (options : ClientOptions) (path : IniPath) (before : Text)
    (r : Outcome ConnectionConfig) (left : Option Text)
    (hp : options.statsApiIniPath = some path)
    (h : prepareConnectionConfig options (Disk.holding before) = (some r,left)) :
    ∃ s back, settle options before = some s ∧ readBack s.ini s.rate = some back ∧
      r = conclude options (some path) s.port back.2 back.1 s.mutated ∧ left = some s.ini := by
  rw [prepare_existing options path before hp] at h
  cases hs : settle options before with
  | none => simp [hs] at h
  | some s =>
    simp only [hs, Prod.mk.injEq, Option.map_eq_some_iff] at h
    obtain ⟨⟨back,hb,hr⟩,hl⟩ := h
    exact ⟨s,back,rfl,hb,hr.symm,hl.symm⟩

theorem readBack_at (ini : Text) (rate : F32) (back : F32 × U16)
    (h : readBack ini rate = some back) :
    back = (((f32At ini rateKey).map clampRate).getD rate,
      (u16At ini webPortKey).getD defaultWebPort) := by
  obtain ⟨found,hf,h⟩ := Option.bind_eq_some_iff.mp h
  obtain ⟨web,hw,rfl⟩ := Option.map_eq_some_iff.mp h
  rw [findF32Value_at ini rateKey found hf, findU16Value_at ini webPortKey web hw]

theorem conclude_ok (options : ClientOptions) (path : Option IniPath) (port web : U16) (rate : F32)
    (mutated : Bool) (cfg : ConnectionConfig)
    (h : conclude options path port web rate mutated = .ok cfg) :
    cfg = ⟨options.host,port,web,rate,path,mutated⟩ ∧ (web = 0 ∨ web ≠ port) := by
  unfold conclude at h
  split_ifs at h with hc
  cases h
  constructor
  · rfl
  · by_cases hz : web = 0
    · exact .inl hz
    · exact .inr (fun he => hc ⟨hz,he⟩)

theorem conclude_error (options : ClientOptions) (path : Option IniPath) (port web : U16)
    (rate : F32) (mutated : Bool) :
    (∃ e, conclude options path port web rate mutated = .error e) ↔ web ≠ 0 ∧ web = port := by
  unfold conclude
  split_ifs with hc
  · exact ⟨fun _ => hc,fun _ => ⟨_,rfl⟩⟩
  · simp [hc]

/-! ## The configuration returned and the file left -/

structure OnDisk (options : ClientOptions) (before after : Text) (cfg : ConnectionConfig) :
    Prop where
  port : options.portOverride = none →
    findU16Value after portKey = some (some cfg.port) ∧ 0 < cfg.port
  override : ∀ port, options.portOverride = some port →
    cfg.port = port ∧ findStringValue after portKey = findStringValue before portKey
  webPort : (findU16Value after webPortKey).map (fun web => web.getD defaultWebPort) =
    some cfg.webPort
  rate : ∀ rate, findF32Value after rateKey = some (some rate) →
    cfg.packetSendRate = clampRate rate
  ratePresent : options.autoEnablePacketRate = true →
    ∃ rate, findF32Value after rateKey = some (some rate)
  distinct : cfg.webPort = 0 ∨ cfg.webPort ≠ cfg.port
  unmutated : cfg.iniMutated = false → after = before

/-- The configuration of a successful call is what its file says. -/
theorem config_on_disk (options : ClientOptions) (path : IniPath) (before : Text)
    (cfg : ConnectionConfig) (left : Option Text) (hp : options.statsApiIniPath = some path)
    (ha : AsciiLed before)
    (h : prepareConnectionConfig options (Disk.holding before) = (some (.ok cfg),left)) :
    ∃ after, left = some after ∧ OnDisk options before after cfg := by
  obtain ⟨s,back,hs,hb,hr,rfl⟩ := prepare_returns options path before _ left hp h
  obtain ⟨rfl,hd⟩ := conclude_ok options _ _ _ _ _ cfg hr.symm
  obtain rfl := readBack_at s.ini s.rate back hb
  have ha' := settled_ascii hs ha
  refine ⟨s.ini,rfl,?_⟩
  constructor
  · intro ho
    obtain ⟨hu,hpos⟩ := settled_port hs ho
    exact ⟨by rw [findU16Value_ascii s.ini portKey ha', hu],hpos⟩
  · intro port ho
    have hw : ¬ WritesPort options before := by simp [WritesPort, ho]
    constructor
    · show s.port = port
      rw [(settle_edits options before s hs).1, effectivePort, ho]
      rfl
    · rw [findStringValue_ascii s.ini portKey ha', findStringValue_ascii before portKey ha,
        settled_port_kept hs hw]
  · rw [findU16Value_ascii s.ini webPortKey ha']
    rfl
  · intro rate hf
    rw [findF32Value_ascii s.ini rateKey ha', Option.some.injEq] at hf
    simp [hf]
  · intro he
    rw [findF32Value_ascii s.ini rateKey ha']
    obtain ⟨rate,hrate⟩ := settled_rate hs he
    exact ⟨rate,by rw [hrate]⟩
  · exact hd
  · exact settle_unmutated options before s hs

def someIni : IniPath := ⟨"TAStatsAPI.ini",none⟩

def zeroRate : Text := "PacketSendRate=0\nPort=49150\n".toList

theorem zero_rate_on_disk :
    ∃ after, some "PacketSendRate=60\nPort=49150".toList = some after ∧
      OnDisk {statsApiIniPath := some someIni} zeroRate after
        ⟨"127.0.0.1",49150,49124,defaultPacketSendRate,some someIni,true⟩ :=
  config_on_disk {statsApiIniPath := some someIni} someIni zeroRate _ _ rfl (by decide +kernel)
    (by decide +kernel)

/-! ## Failed calls -/

/-- The port in use is the file's web port. -/
def Clashes (options : ClientOptions) (before : Text) : Prop :=
  let web := (u16At before webPortKey).getD defaultWebPort
  web ≠ 0 ∧ web = effectivePort options before

/-- An edit is made that changes the text. -/
def Rewrites (options : ClientOptions) (before : Text) : Prop :=
  WritesPort options before ∨
    (WritesRate options before ∧ upsertKey before rateKey (rateText options) ≠ some before)

/-- The file gives its port as a web port that is in use. -/
def SharesWebPort (contents : Text) : Prop :=
  ∃ port, port ≠ 0 ∧ u16At contents portKey = some port ∧ u16At contents webPortKey = some port

/-- Writing the port changes the text. -/
theorem settled_port_changes (options : ClientOptions) (before : Text) (s : Settled)
    (h : settle options before = some s) (hw : WritesPort options before) : s.ini ≠ before := by
  intro he
  have hd := settled_port_written h hw
  have hn := hw.2
  rw [he] at hd
  rw [portAt, hd] at hn
  exact absurd hn (by decide)

theorem settled_rewrites (options : ClientOptions) (before : Text) (s : Settled)
    (h : settle options before = some s) : s.ini = before ↔ ¬ Rewrites options before := by
  obtain ⟨_,mid,w,w',e,e',hm⟩ := settle_edits options before s h
  constructor
  · rintro he (hw | ⟨hw,hne⟩)
    · exact settled_port_changes options before s h hw he
    · have hp : ¬ WritesPort options before := fun hp =>
        settled_port_changes options before s h hp he
      rw [(e.idle hp).1, he] at e'
      exact hne (e'.writes hw).1
  · intro hn
    simp only [Rewrites, not_or, not_and, not_not] at hn
    have hmid := (e.idle hn.1).1
    rw [hmid] at e'
    by_cases hw : WritesRate options before
    · have hu := (e'.writes hw).1
      rw [hn.2 hw] at hu
      cases hu
      rfl
    · exact (e'.idle hw).1

/-- A call that fails leaves the file as it was, and no call brings its port
into conflict, exactly when there is no clash or no edit. -/
theorem failed_call_keeps_file_iff (options : ClientOptions) (path : IniPath) (before : Text)
    (r : Outcome ConnectionConfig) (left : Option Text)
    (hp : options.statsApiIniPath = some path)
    (h : prepareConnectionConfig options (Disk.holding before) = (some r,left)) :
    ((∀ e, r = .error e → left = some before) ∧
        ∀ after, left = some after → SharesWebPort after → SharesWebPort before) ↔
      ¬ (Clashes options before ∧ Rewrites options before) := by
  obtain ⟨s,back,hs,hb,hr,rfl⟩ := prepare_returns options path before r left hp h
  obtain rfl := readBack_at s.ini s.rate back hb
  rw [settled_web hs] at hr
  have hport := (settle_edits options before s hs).1
  constructor
  · rintro ⟨hkeep,_⟩ ⟨hc,hw⟩
    rw [hport] at hr
    obtain ⟨e,he⟩ := (conclude_error options (some path) _ _ _ s.mutated).mpr hc
    have hleft := hkeep e (hr.trans he)
    rw [Option.some.injEq] at hleft
    exact (settled_rewrites options before s hs).mp hleft hw
  · intro hn
    constructor
    · intro e he
      have hc : Clashes options before := by
        rw [hport] at hr
        exact (conclude_error options (some path) _ _ _ s.mutated).mp ⟨e,hr.symm.trans he⟩
      rw [(settled_rewrites options before s hs).mpr (fun hw => hn ⟨hc,hw⟩)]
    · rintro after ha ⟨port,hne,hsame,hweb⟩
      cases ha
      rw [settled_web hs] at hweb
      by_cases hw : WritesPort options before
      · -- The port written is the one in use, so that the file clashes with it.
        rw [settled_port_written hs hw] at hsame
        cases hsame
        refine absurd ⟨⟨?_,?_⟩,.inl hw⟩ hn
        · rw [hweb]
          exact hne
        · rw [hweb, effectivePort, hw.1, hw.2]
          rfl
      · rw [u16At, settled_port_kept hs hw] at hsame
        exact ⟨port,hne,hsame,hweb⟩

def webPortAlone : Text := "WebPort=49123\n".toList

theorem missing_port_brought_into_conflict :
    ∃ after e, prepareConnectionConfig {statsApiIniPath := some someIni}
        (Disk.holding webPortAlone) = (some (.error e),some after) ∧
      after ≠ webPortAlone ∧ SharesWebPort after ∧ ¬ SharesWebPort webPortAlone := by
  refine ⟨"WebPort=49123\n\nPort=49123\n\nPacketSendRate=60".toList,.portConflict 49123,
    by decide +kernel,by decide,⟨49123,by decide,by decide +kernel,by decide +kernel⟩,?_⟩
  rintro ⟨port,_,hport,_⟩
  have hn : u16At webPortAlone portKey = none := by decide +kernel
  rw [hn] at hport
  cases hport

def equalPorts : Text := "PacketSendRate=30\nPort=49200\nWebPort=49200\n".toList

theorem equal_ports_kept :
    ((∀ e, (.error (.portConflict 49200) : Outcome ConnectionConfig) = .error e →
          some equalPorts = some equalPorts) ∧
        ∀ after, some equalPorts = some after → SharesWebPort after → SharesWebPort equalPorts) ↔
      ¬ (Clashes {statsApiIniPath := some someIni} equalPorts ∧
        Rewrites {statsApiIniPath := some someIni} equalPorts) :=
  failed_call_keeps_file_iff {statsApiIniPath := some someIni} someIni equalPorts
    (.error (.portConflict 49200)) (some equalPorts) rfl (by decide +kernel)

/-! ## Sections -/

def gameSection : Text := "[TAGame.MatchStatsExporter_TA]".toList

/-- The game's section receives the key, and no other section does. -/
def AtHome (key contents : Text) : Prop :=
  Receives norm (some gameSection) key none (items contents) ∧
    ∀ g, g ≠ some gameSection → ¬ Receives norm g key none (items contents)

theorem atHome_last (key contents : Text) (ha : assigns norm key (items contents) = false)
    (hc : current none (items contents) = some gameSection) : AtHome key contents := by
  constructor
  · exact .inr ⟨ha,hc⟩
  · rintro g hg (hs | ⟨_,he⟩)
    · rw [valueIn_none norm g key none _ ha] at hs
      cases hs
    · exact hg (he.symm.trans hc)

structure BySection (options : ClientOptions) (before after : Text) : Prop where
  port : WritesPort options before → ∀ g, valueIn norm g portKey none (items after) =
    if Receives norm g portKey none (items before) then some defaultPortText else none
  rate : WritesRate options before → ∀ g, valueIn norm g rateKey none (items after) =
    if Receives norm g rateKey none (items before) then some (rateText options) else none
  kept : ∀ g key, (WritesPort options before → norm key ≠ norm portKey) →
    (WritesRate options before → norm key ≠ norm rateKey) →
    valueIn norm g key none (items after) = valueIn norm g key none (items before)

theorem settled_sections (options : ClientOptions) (before : Text) (s : Settled)
    (h : settle options before = some s) : BySection options before s.ini := by
  obtain ⟨_,mid,w,w',e,e',_⟩ := settle_edits options before s h
  have hr := plain_rate options
  constructor
  · intro hw g
    rw [edit_valueIn_other e' hr g portKey port_rate.symm, edit_valueIn e plain_port hw]
  · intro hw g
    rw [edit_valueIn e' hr hw]
    simp only [edit_receives_other e plain_port g rateKey port_rate]
  · intro g key h1 h2
    have hmid : valueIn norm g key none (items mid) = valueIn norm g key none (items before) := by
      by_cases hw : WritesPort options before
      · exact edit_valueIn_other e plain_port g key (h1 hw)
      · rw [(e.idle hw).1]
    rw [← hmid]
    by_cases hw : WritesRate options before
    · exact edit_valueIn_other e' hr g key (h2 hw)
    · rw [(e'.idle hw).1]

structure InGameSection (options : ClientOptions) (before after : Text) : Prop where
  port : WritesPort options before →
    valueIn norm (some gameSection) portKey none (items after) = some defaultPortText
  rate : WritesRate options before →
    valueIn norm (some gameSection) rateKey none (items after) = some (rateText options)
  elsewhere : ∀ g, g ≠ some gameSection → ∀ key,
    valueIn norm g key none (items after) = valueIn norm g key none (items before)

theorem written_elsewhere (key k v before after : Text) (g : Option Text)
    (hg : g ≠ some gameSection) (hh : AtHome key before) (hk : norm k = norm key)
    (hv : valueIn norm g key none (items after) =
      if Receives norm g key none (items before) then some v else none) :
    valueIn norm g k none (items after) = valueIn norm g k none (items before) := by
  rw [valueIn_norm norm g key k none _ hk, valueIn_norm norm g key k none _ hk, hv,
    if_neg (hh.2 g hg), valueIn_unreceived norm g key none _ (hh.2 g hg)]

theorem game_section (options : ClientOptions) (before after : Text)
    (h : BySection options before after)
    (hport : WritesPort options before → AtHome portKey before)
    (hrate : WritesRate options before → AtHome rateKey before) :
    InGameSection options before after := by
  constructor
  · intro hw
    rw [h.port hw, if_pos (hport hw).1]
  · intro hw
    rw [h.rate hw, if_pos (hrate hw).1]
  · intro g hg key
    by_cases hp : WritesPort options before ∧ norm key = norm portKey
    · exact written_elsewhere portKey key _ before after g hg (hport hp.1) hp.2 (h.port hp.1 g)
    · by_cases hr : WritesRate options before ∧ norm key = norm rateKey
      · exact written_elsewhere rateKey key _ before after g hg (hrate hr.1) hr.2 (h.rate hr.1 g)
      · exact h.kept g key (fun hw hk => hp ⟨hw,hk⟩) (fun hw hk => hr ⟨hw,hk⟩)

/-- What a call writes is received by every section that assigned its key,
or else by the last one; so it is the game's alone where that is the only
section to receive it. -/
theorem edits_by_section (options : ClientOptions) (path : IniPath) (before : Text)
    (r : Option (Outcome ConnectionConfig)) (left : Option Text)
    (hp : options.statsApiIniPath = some path)
    (h : prepareConnectionConfig options (Disk.holding before) = (r,left))
    (hw : r ≠ none ∨ left ≠ some before) :
    ∃ after, left = some after ∧ BySection options before after ∧
      ((WritesPort options before → AtHome portKey before) →
        (WritesRate options before → AtHome rateKey before) →
          InGameSection options before after) := by
  rw [prepare_existing options path before hp] at h
  cases hs : settle options before with
  | none =>
    simp only [hs] at h
    cases h
    simp at hw
  | some s =>
    simp only [hs] at h
    cases h
    have hb := settled_sections options before s hs
    exact ⟨s.ini,rfl,hb,game_section options before s.ini hb⟩

def twoSections : Text :=
  "[A]\nPort=0\n[TAGame.MatchStatsExporter_TA]\nPort=49150\nPacketSendRate=30\n".toList

theorem other_section_edited :
    ∃ r after, prepareConnectionConfig {statsApiIniPath := some someIni}
        (Disk.holding twoSections) = (some (.ok r),some after) ∧
      valueIn norm (some "[A]".toList) portKey none (items twoSections) = some "0".toList ∧
      valueIn norm (some "[A]".toList) portKey none (items after) = some "49123".toList :=
  ⟨⟨"127.0.0.1",49123,49124,ofInt binary32 30,some someIni,true⟩,
    "[A]\nPort=49123\n[TAGame.MatchStatsExporter_TA]\nPort=49123\nPacketSendRate=30".toList,
    by decide +kernel,by decide +kernel,by decide +kernel⟩

def gameLast : Text := "[A]\nSpeed=1\n[TAGame.MatchStatsExporter_TA]\nPacketSendRate=30\n".toList

def gameLastEdited : Text :=
  "[A]\nSpeed=1\n[TAGame.MatchStatsExporter_TA]\nPacketSendRate=30\n\nPort=49123".toList

theorem missing_port_in_last_section :
    ∃ after, some gameLastEdited = some after ∧
      BySection {statsApiIniPath := some someIni} gameLast after ∧
      InGameSection {statsApiIniPath := some someIni} gameLast after := by
  obtain ⟨after,he,hb,hg⟩ := edits_by_section {statsApiIniPath := some someIni} someIni gameLast
    (some (.ok ⟨"127.0.0.1",49123,49124,ofInt binary32 30,some someIni,true⟩))
    (some gameLastEdited) rfl (by decide +kernel) (.inl (by simp))
  have hr : ¬ WritesRate {statsApiIniPath := some someIni} gameLast := by decide +kernel
  exact ⟨after,he,hb,hg (fun _ => atHome_last portKey gameLast (by decide +kernel)
    (by decide +kernel)) (fun hw => absurd hw hr)⟩

end RlStatsApi.ConfigPolicy
