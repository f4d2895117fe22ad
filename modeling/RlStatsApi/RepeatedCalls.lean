import RlStatsApi.ReturningCalls

/-!
# Calling again

A second call finds the port it needs and the rate that was written, so its
configuration is that of the first. It writes the rate again where the
options still ask for it; the lines are then the same, and only their
endings can differ.
-/

set_option autoImplicit false

namespace RlStatsApi.RepeatedCalls
open RlStatsApi.TextLines RlStatsApi.BinaryFloat RlStatsApi.DecimalText RlStatsApi.Error
open RlStatsApi.KeyedItems RlStatsApi.IniText RlStatsApi.LineCuts RlStatsApi.ClientConfig
open RlStatsApi.ConfigPolicy RlStatsApi.ReturningCalls

/-! ## Upserting again -/

/-- If the line assigns the key, then as an upsert of the value writes it. -/
def Assigned (key value line : Text) : Prop :=
  assignsKey key line = true → line = line.takeWhile isWhitespace++assignment key value

theorem assigned_stripCr (key value l : Text) (hp : Plain key value) (h : Assigned key value l) :
    Assigned key value (stripCr l) := by
  intro ha
  rw [assignsKey, trim_stripCr] at ha
  have hl := h ha
  have hs : stripCr l = l := by
    rw [stripCr_eq_self_iff, hl, List.getLast?_append_of_ne_nil _ (by simp [assignment])]
    intro hr
    rw [← trim_assignment key value hp] at hr
    exact absurd (trim_last _ _ hr) (by decide)
  rw [hs]
  exact hl

theorem rewritten_assigned (key value l : Text) (hp : Plain key value) (h : asciiLed l = true) :
    Assigned key value (rewritten key value l) := by
  rw [rewritten]
  split_ifs with hk
  · intro _
    rw [takeBytes_ascii l h, takeWhile_written _ key value (isBlank_takeWhile l) hp]
  · exact fun ha => absurd ha hk

/-- After an upsert every assignment of the key is as it wrote it. -/
theorem edited_assigned (key value contents : Text) (hp : Plain key value) (h : AsciiLed contents) :
    ∀ l ∈ lines (edited key value contents), Assigned key value l := by
  rw [lines_edited key value contents hp]
  apply endLines_all _ (fun l => assigned_stripCr key value l hp)
  apply editedLines_all
  · exact fun l hl => rewritten_assigned key value l hp (h l hl)
  · exact fun ha => by cases ha
  · intro _
    have ht := takeWhile_written [] key value rfl hp
    rw [List.nil_append] at ht
    rw [ht, List.nil_append]

theorem assigns_lines (key value contents : Text) (hp : Plain key value) (h : AllSound contents) :
    (lines contents).any (assignsKey key) = assigns norm key (items contents) :=
  (rewriteLines_items key value hp (lines contents) _ _ (no_feed_lines contents)
    (rewriteLines_sound key value (lines contents) h)).2.1

/-- An upsert of what is assigned changes line endings only. -/
theorem edited_again (key value contents : Text) (h : AsciiLed contents)
    (hl : ∀ l ∈ lines contents, Assigned key value l)
    (ha : (lines contents).any (assignsKey key) = true) :
    edited key value contents = relined contents := by
  have hsame : (lines contents).map (rewritten key value) = (lines contents).map id := by
    apply List.map_congr_left
    intro l hm
    rw [rewritten]
    split_ifs with hk
    · rw [takeBytes_ascii l (h l hm)]
      exact (hl l hm hk).symm
    · rfl
  rw [edited, editedLines, if_pos ha, hsame, List.map_id, relined]

/-! ## The second call -/

section Again

variable {options : ClientOptions} {ini : Text} {s : Settled} (h : settle options ini = some s)
include h

/-- The settled port is found again. -/
theorem port_again : ¬ WritesPort options s.ini ∧ effectivePort options s.ini = s.port := by
  cases ho : options.portOverride with
  | some port =>
    have hp := (settle_edits options ini s h).1
    rw [effectivePort, ho] at hp
    exact ⟨by simp [WritesPort, ho],by rw [effectivePort, ho, hp]; rfl⟩
  | none =>
    obtain ⟨hu,hpos⟩ := settled_port h ho
    have hat : portAt s.ini = some s.port := by
      rw [portAt, hu, Option.filter_some, if_pos (decide_eq_true hpos)]
    exact ⟨by simp [WritesPort, hat],by rw [effectivePort, ho, hat]; rfl⟩

/-- A rate that is to be written again was written the first time. -/
theorem rate_written_before (hw : WritesRate options s.ini) : WritesRate options ini := by
  by_contra hn
  rw [WritesRate, settled_rate_kept h hn] at hw
  exact hn hw

theorem rate_unsettled (ha : ¬ options.autoEnablePacketRate = true) :
    s.rate = clampRate options.packetSendRate := by
  obtain ⟨⟨port,mid,w⟩,_,h⟩ := Option.bind_eq_some_iff.mp h
  obtain ⟨⟨rate,after,w'⟩,hr,rfl⟩ := Option.map_eq_some_iff.mp h
  rw [settleRate, if_neg ha] at hr
  cases hr
  rfl

variable {s' : Settled} (h' : settle options s.ini = some s')
include h'

theorem rate_at_again : f32At s'.ini rateKey = f32At s.ini rateKey := by
  by_cases hw : WritesRate options s.ini
  · rw [settled_rate_text h' hw, settled_rate_text h (rate_written_before h hw)]
  · exact settled_rate_kept h' hw

/-- The rate that is read back is the same. -/
theorem rate_again :
    ((f32At s'.ini rateKey).map clampRate).getD s'.rate =
      ((f32At s.ini rateKey).map clampRate).getD s.rate := by
  rw [rate_at_again h h']
  cases hf : f32At s.ini rateKey with
  | some rate => rfl
  | none =>
    have ha : ¬ options.autoEnablePacketRate = true := by
      intro ha
      obtain ⟨rate,hr⟩ := settled_rate h ha
      rw [hf] at hr
      cases hr
    show s'.rate = s.rate
    rw [rate_unsettled h ha, rate_unsettled h' ha]

theorem unwritten_again (hw : ¬ WritesRate options s.ini) : s'.ini = s.ini := by
  obtain ⟨_,mid,w,w',e,e',_⟩ := settle_edits options s.ini s' h'
  rw [(e'.idle hw).1, (e.idle (port_again h).1).1]

/-- Where the rate is written again every assignment of it already has that
rate. -/
theorem written_again (ha : AsciiLed ini) (hw : WritesRate options s.ini) :
    s'.ini = relined s.ini := by
  obtain ⟨_,mid,_,_,e,e',_⟩ := settle_edits options ini s h
  obtain ⟨_,mid',_,_,d,d',_⟩ := settle_edits options s.ini s' h'
  have hp := plain_rate options
  have hmid := edit_ascii e plain_port ha
  have ha' := settled_ascii h ha
  have hs := ((upsertKey_iff _ _ _ _).mp (e'.writes (rate_written_before h hw)).1).2
  have hs' := ((upsertKey_iff _ _ _ _).mp (d'.writes hw).1).2
  rw [(d.idle (port_again h).1).1] at hs'
  have hl := edited_assigned rateKey (rateText options) mid hp hmid
  rw [← hs] at hl
  rw [hs']
  apply edited_again _ _ _ ha' hl
  rw [assigns_lines _ (rateText options) _ hp (allSound_ascii _ ha')]
  by_contra hn
  have hv := edit_value e' hp (rate_written_before h hw)
  rw [value_none norm rateKey _ (by simpa using hn)] at hv
  cases hv

end Again

/-- Two configurations with the same connection: the path and whether the
file was written are left open. -/
structure SameConnection (cfg cfg' : ConnectionConfig) : Prop where
  host : cfg'.host = cfg.host
  port : cfg'.port = cfg.port
  webPort : cfg'.webPort = cfg.webPort
  packetSendRate : cfg'.packetSendRate = cfg.packetSendRate

structure Repeats (options : ClientOptions) (before after : Text) (cfg : ConnectionConfig) :
    Prop where
  connection : ∀ r left, prepareConnectionConfig options (Disk.holding after) = (some r,left) →
    ∃ cfg', r = .ok cfg' ∧ SameConnection cfg cfg'
  unwritten : ∀ r left, prepareConnectionConfig options (Disk.holding after) = (some r,left) →
    ¬ WritesRate options after → left = some after
  ascii : AsciiLed before → ∃ cfg', prepareConnectionConfig options (Disk.holding after) =
    (some (.ok cfg'),some (if WritesRate options after then relined after else after))

theorem conclude_again (options : ClientOptions) (path : Option IniPath) (port web : U16)
    (rate : F32) (mutated mutated' : Bool) (cfg : ConnectionConfig)
    (h : conclude options path port web rate mutated = .ok cfg) :
    ∃ cfg', conclude options path port web rate mutated' = .ok cfg' ∧ SameConnection cfg cfg' := by
  unfold conclude at h ⊢
  split_ifs at h ⊢ with hc
  cases h
  exact ⟨_,rfl,rfl,rfl,rfl,rfl⟩

theorem call_again (options : ClientOptions) (path : IniPath) (before : Text) (s : Settled)
    (cfg : ConnectionConfig) (hp : options.statsApiIniPath = some path)
    (hs : settle options before = some s)
    (hc : conclude options (some path) s.port ((u16At s.ini webPortKey).getD defaultWebPort)
      (((f32At s.ini rateKey).map clampRate).getD s.rate) s.mutated = .ok cfg)
    (r : Outcome ConnectionConfig) (left : Option Text)
    (h : prepareConnectionConfig options (Disk.holding s.ini) = (some r,left)) :
    (∃ cfg', r = .ok cfg' ∧ SameConnection cfg cfg') ∧
      ∃ s', settle options s.ini = some s' ∧ left = some s'.ini := by
  obtain ⟨s',back,hs',hb,hr,rfl⟩ := prepare_returns options path s.ini r left hp h
  obtain rfl := readBack_at s'.ini s'.rate back hb
  have hport : s'.port = s.port := by
    rw [(settle_edits options s.ini s' hs').1, (port_again hs).2]
  rw [rate_again hs hs', settled_web hs', hport] at hr
  obtain ⟨cfg',hc',hsame⟩ := conclude_again options (some path) _ _ _ _ s'.mutated cfg hc
  exact ⟨⟨cfg',hr.trans hc',hsame⟩,s',hs',rfl⟩

theorem settled_repeats (options : ClientOptions) (path : IniPath) (before : Text)
    (cfg : ConnectionConfig) (left : Option Text) (hp : options.statsApiIniPath = some path)
    (h : prepareConnectionConfig options (Disk.holding before) = (some (.ok cfg),left)) :
    ∃ after, left = some after ∧ Repeats options before after cfg := by
  obtain ⟨s,back,hs,hb,hc,rfl⟩ := prepare_returns options path before _ left hp h
  obtain rfl := readBack_at s.ini s.rate back hb
  have hagain := call_again options path before s cfg hp hs hc.symm
  refine ⟨s.ini,rfl,?_,?_,?_⟩
  · exact fun r left h' => (hagain r left h').1
  · intro r left h' hw
    obtain ⟨_,s',hs',rfl⟩ := hagain r left h'
    rw [unwritten_again hs hs' hw]
  · intro ha
    obtain ⟨r,after,h',_⟩ := prepare_completes options path s.ini hp (settled_ascii hs ha)
    obtain ⟨⟨cfg',rfl,_⟩,s',hs',hleft⟩ := hagain r _ h'
    refine ⟨cfg',?_⟩
    rw [h', hleft]
    split_ifs with hw
    · rw [written_again hs hs' ha hw]
    · rw [unwritten_again hs hs' hw]

/-- A second call returns the same connection. It changes the file only
where the options make it write the rate again, and then only the ends of
its lines. -/
theorem second_call_repeats (options : ClientOptions) (path : IniPath) (before : Text)
    (cfg : ConnectionConfig) (left : Option Text) (hp : options.statsApiIniPath = some path)
    (h : prepareConnectionConfig options (Disk.holding before) = (some (.ok cfg),left)) :
    ∃ after, left = some after ∧ Repeats options before after cfg ∧
      (relined after = after ↔ ¬ ['\r','\n'] <:+: after ∧ after.getLast? ≠ some '\n') := by
  obtain ⟨after,hleft,hr⟩ := settled_repeats options path before cfg left hp h
  exact ⟨after,hleft,hr,relined_iff after⟩

theorem zero_rate_repeats :
    ∃ after, some "PacketSendRate=60\nPort=49150".toList = some after ∧
      Repeats {statsApiIniPath := some someIni} zeroRate after
        ⟨"127.0.0.1",49150,49124,defaultPacketSendRate,some someIni,true⟩ ∧
      (relined after = after ↔ ¬ ['\r','\n'] <:+: after ∧ after.getLast? ≠ some '\n') :=
  second_call_repeats {statsApiIniPath := some someIni} someIni zeroRate _ _ rfl
    (by decide +kernel)

def blankEnd : Text := "PacketSendRate=60\nPort=5\n\n".toList

/-- Every call of a client that always sets its rate takes one line feed off
the end. -/
theorem blank_end_shrinks :
    ∃ cfg after cfg' after', prepareConnectionConfig
        {statsApiIniPath := some someIni, setPacketRateOnlyWhenZero := false}
        (Disk.holding blankEnd) = (some (.ok cfg),some after) ∧
      prepareConnectionConfig
        {statsApiIniPath := some someIni, setPacketRateOnlyWhenZero := false}
        (Disk.holding after) = (some (.ok cfg'),some after') ∧ after' ≠ after :=
  ⟨⟨"127.0.0.1",5,49124,defaultPacketSendRate,some someIni,true⟩,
    "PacketSendRate=60\nPort=5\n".toList,
    ⟨"127.0.0.1",5,49124,defaultPacketSendRate,some someIni,true⟩,
    "PacketSendRate=60\nPort=5".toList,by decide +kernel,by decide +kernel,by decide +kernel⟩

/-! ## Every call -/

/-- The file after some calls with the same options. -/
def fileAfter (options : ClientOptions) (before : Text) : ℕ → Text
  | 0 => before
  | n+1 =>
    let ini := fileAfter options before n
    (prepareConnectionConfig options (Disk.holding ini)).2.getD ini

theorem sameConnection_trans {a b c : ConnectionConfig} (h : SameConnection a b)
    (h' : SameConnection b c) : SameConnection a c :=
  ⟨h'.host.trans h.host,h'.port.trans h.port,h'.webPort.trans h.webPort,
    h'.packetSendRate.trans h.packetSendRate⟩

/-- Once a call has returned a connection, all later ones return it. -/
theorem every_call_repeats (options : ClientOptions) (path : IniPath) (before : Text)
    (cfg : ConnectionConfig) (hp : options.statsApiIniPath = some path) (ha : AsciiLed before)
    (h : (prepareConnectionConfig options (Disk.holding before)).1 = some (.ok cfg)) (n : ℕ) :
    AsciiLed (fileAfter options before n) ∧ ∃ cfg', (prepareConnectionConfig options
      (Disk.holding (fileAfter options before n))).1 = some (.ok cfg') ∧
        SameConnection cfg cfg' := by
  induction n with
  | zero => exact ⟨ha,cfg,h,rfl,rfl,rfl,rfl⟩
  | succ n ih =>
    obtain ⟨han,cfgn,hn,hsame⟩ := ih
    rw [fileAfter]
    generalize fileAfter options before n = ini at han hn ⊢
    obtain ⟨r,after,hcall,hafter⟩ := prepare_completes options path ini hp han
    rw [hcall] at hn
    cases hn
    obtain ⟨_,hleft,hr⟩ := settled_repeats options path ini cfgn _ hp hcall
    cases hleft
    obtain ⟨cfg',hnext⟩ := hr.ascii han
    obtain ⟨_,hok,hsame'⟩ := hr.connection _ _ hnext
    cases hok
    rw [hcall]
    exact ⟨hafter,cfg',by rw [Option.getD_some, hnext],sameConnection_trans hsame hsame'⟩

end RlStatsApi.RepeatedCalls
