import RlStatsApi.DecimalText
import RlStatsApi.Error
import RlStatsApi.IniText

/-!
# The client configuration

The settings of a connection are read from the options and from the game's
INI file. A missing or invalid port and a packet rate that does not meet the
options are first written into the file; only then is the port compared with
the web port.
-/

set_option autoImplicit false

namespace RlStatsApi.ClientConfig
open RlStatsApi.TextLines RlStatsApi.BinaryFloat RlStatsApi.DecimalText RlStatsApi.Error
open RlStatsApi.IniText

abbrev F32 := Datum binary32

def defaultPort : U16 := 49123
def defaultWebPort : U16 := 49124
def defaultPacketSendRate : F32 := ofInt binary32 60
def maxPacketSendRate : F32 := ofInt binary32 120

def defaultIniTemplate : Text :=
  joinLines (List.map String.toList [
    "[TAGame.MatchStatsExporter_TA]",
    "",
    "; Port the client will listen for connections on",
    "Port=49123",
    "",
    "; Port the client will listen for WebSocket connections on (must differ from Port, 0 disables this feature)",
    "WebPort=49124",
    "",
    "; How many times per second the game sends the update state (capped at 120, 0 disables this feature)",
    "PacketSendRate=60",
    ""])

/-- A path as it is displayed, and its parent directory. -/
structure IniPath where
  display : String
  parent : Option String
  deriving DecidableEq

structure ClientOptions where
  host : String := "127.0.0.1"
  portOverride : Option U16 := none
  statsApiIniPath : Option IniPath := none
  autoEnablePacketRate : Bool := true
  packetSendRate : F32 := defaultPacketSendRate
  setPacketRateOnlyWhenZero : Bool := true

structure ConnectionConfig where
  host : String
  port : U16
  webPort : U16
  packetSendRate : F32
  iniPath : Option IniPath
  iniMutated : Bool
  deriving DecidableEq

/-! ## Rates -/

def clampRate (rate : F32) : F32 := rate.clamp (zero binary32) maxPacketSendRate

def dropZeros (s : Text) : Text := s.rdropWhile (fun c => c == '0')

def dropPoint (s : Text) : Text := if s.getLast? = some '.' then s.dropLast else s

def formatRate (rate : F32) : Text :=
  let formatted := dropPoint (dropZeros (toFixed 3 rate))
  if formatted = [] then ['0'] else formatted

/-! ## The INI file -/

def portKey : Text := ['P','o','r','t']
def webPortKey : Text := ['W','e','b','P','o','r','t']
def rateKey : Text := "PacketSendRate".toList

/-- An inner `none` is a missing or unreadable value. -/
def findF32Value (contents key : Text) : Option (Option F32) :=
  (findStringValue contents key).map (fun found => found.bind (parseFloat binary32))

def findU16Value (contents key : Text) : Option (Option U16) :=
  (findStringValue contents key).map (fun found => found.bind (parseUnsigned 65536))

/-- The file at the path, and how the operating system answers: a write that
fails leaves what is given with it. -/
structure Disk where
  contents : Option Text
  parentFails : Bool := false
  createFails : Option (Option Text) := none
  readFails : Bool := false
  updateFails : Option (Option Text) := none

/-- A file that exists and can be read and written. -/
def Disk.holding (contents : Text) : Disk := {contents := some contents}

def writeConfigFile (path : IniPath) (fails : Option (Option Text)) (contents : Text) :
    Outcome Unit × Option Text :=
  match fails with
  | none => (.ok (),some contents)
  | some left => (.error (.configIo path.display),left)

def ensureIniFileExists (path : IniPath) (disk : Disk) : Outcome Unit × Option Text :=
  match disk.contents, path.parent with
  | some contents, _ => (.ok (),some contents)
  | none, some parent =>
    if disk.parentFails = true then (.error (.configIo parent),none)
    else writeConfigFile path disk.createFails defaultIniTemplate
  | none, none => writeConfigFile path disk.createFails defaultIniTemplate

def readConfigFile (path : IniPath) (disk : Disk) (contents : Option Text) : Outcome Text :=
  match contents, disk.readFails with
  | some contents, false => .ok contents
  | _, _ => .error (.configIo path.display)

/-! ## Preparing a connection -/

def defaultPortText : Text := Nat.toDigits 10 defaultPort.val

def rateText (options : ClientOptions) : Text := formatRate (clampRate options.packetSendRate)

/-- The port, the text it leaves, and whether it was written there. -/
def settlePort (options : ClientOptions) (ini : Text) : Option (U16 × Text × Bool) :=
  match options.portOverride with
  | some port => some (port,ini,false)
  | none =>
    (findU16Value ini portKey).bind (fun found =>
      match found.filter (fun port => decide (0 < port)) with
      | some port => some (port,ini,false)
      | none => (upsertKey ini portKey defaultPortText).map (fun ini => (defaultPort,ini,true)))

def settleRate (options : ClientOptions) (ini : Text) : Option (F32 × Text × Bool) :=
  let rate := clampRate options.packetSendRate
  if options.autoEnablePacketRate = true then
    (findF32Value ini rateKey).bind (fun found =>
      let existing := found.getD (zero binary32)
      if options.setPacketRateOnlyWhenZero = true → existing.le (zero binary32) = true then
        (upsertKey ini rateKey (rateText options)).map (fun ini => (rate,ini,true))
      else some (clampRate existing,ini,false))
  else some (rate,ini,false)

/-- What is settled before the file is written. -/
structure Settled where
  port : U16
  rate : F32
  ini : Text
  mutated : Bool

def settle (options : ClientOptions) (ini : Text) : Option Settled :=
  (settlePort options ini).bind (fun p =>
    (settleRate options p.2.1).map (fun r => ⟨p.1,r.1,r.2.1,p.2.2 || r.2.2⟩))

/-- The rate and the web port read after the file is written. -/
def readBack (ini : Text) (rate : F32) : Option (F32 × U16) :=
  (findF32Value ini rateKey).bind (fun found =>
    (findU16Value ini webPortKey).map (fun web =>
      ((found.map clampRate).getD rate,web.getD defaultWebPort)))

def conclude (options : ClientOptions) (path : Option IniPath) (port webPort : U16) (rate : F32)
    (mutated : Bool) : Outcome ConnectionConfig :=
  if webPort ≠ 0 ∧ webPort = port then .error (.portConflict port)
  else .ok ⟨options.host,port,webPort,rate,path,mutated⟩

/-- The result, `none` when a line is cut inside a character, and the file
that the call leaves. -/
def prepareConnectionConfig (options : ClientOptions) (disk : Disk) :
    Option (Outcome ConnectionConfig) × Option Text :=
  match options.statsApiIniPath with
  | none =>
    (some (conclude options none (options.portOverride.getD defaultPort) defaultWebPort
      (clampRate options.packetSendRate) false),disk.contents)
  | some path =>
    match ensureIniFileExists path disk with
    | (.error e,contents) => (some (.error e),contents)
    | (.ok (),contents) =>
      match readConfigFile path disk contents with
      | .error e => (some (.error e),contents)
      | .ok ini =>
        match settle options ini with
        | none => (none,contents)
        | some s =>
          match (if s.mutated = true then writeConfigFile path disk.updateFails s.ini
            else (.ok (),contents)) with
          | (.error e,contents) => (some (.error e),contents)
          | (.ok (),contents) =>
            ((readBack s.ini s.rate).map (fun r =>
              conclude options (some path) s.port r.2 r.1 s.mutated),contents)

/-! ## Written values -/

theorem dropZeros_point (s t : Text) : dropZeros (s++ '.'::t) = s++ '.'::dropZeros t := by
  unfold dropZeros
  induction t using List.reverseRecOn with
  | nil => exact List.rdropWhile_concat_neg _ s '.' (by decide)
  | append_singleton t c ih =>
    have hs : s++ '.'::(t++[c]) = (s++ '.'::t)++[c] := by simp
    rw [hs]
    by_cases hc : (c == '0') = true
    · rw [List.rdropWhile_concat_pos (fun c => c == '0') _ c hc,
        List.rdropWhile_concat_pos (fun c => c == '0') _ c hc]
      exact ih
    · rw [List.rdropWhile_concat_neg (fun c => c == '0') _ c hc,
        List.rdropWhile_concat_neg (fun c => c == '0') _ c hc]
      simp

theorem dropPoint_point (s t : Text) (ht : t.all Char.isDigit = true) :
    dropPoint (s++ '.'::t) = s++(if t = [] then [] else '.'::t) := by
  unfold dropPoint
  split_ifs with h hn hn
  · simp [hn]
  · obtain ⟨c,hc⟩ := List.getLast?_isSome.mpr hn |> Option.isSome_iff_exists.mp
    rw [List.getLast?_append_of_ne_nil _ (by simp), List.getLast?_cons, hc] at h
    cases h
    rw [List.all_eq_true] at ht
    exact absurd (ht '.' (List.mem_of_getLast? hc)) (by decide)
  · simp [hn] at h
  · rfl

theorem all_dropZeros (p : Char → Bool) (s : Text) (h : s.all p = true) :
    (dropZeros s).all p = true := by
  rw [List.all_eq_true] at h ⊢
  exact fun c hc => h c ((List.rdropWhile_prefix _ s).subset hc)

/-- What is written for a finite rate: a sign, digits, and possibly a point
and more digits. -/
theorem formatRate_finite (s : Bool) (m k : ℕ) (h : binary32.Canonical m k) :
    ∃ whole fraction tail, formatRate (.finite s m k h) = signText s++(whole++tail) ∧
      whole ≠ [] ∧ whole.all Char.isDigit = true ∧ fraction.all Char.isDigit = true ∧
      (tail = [] ∨ tail = '.'::fraction) := by
  let n := roundHalfEven (m*2^k*10^3) (2^binary32.scale)
  let whole := Nat.toDigits 10 (n/10^3)
  let places := (Nat.toDigits 10 (n%10^3)).leftpad 3 '0'
  have hp : places.all Char.isDigit = true := by
    simp only [places, List.leftpad, List.all_append, toDigits_isDigit, Bool.and_true,
      List.all_replicate]
    split <;> rfl
  have hz := all_dropZeros _ places hp
  have ht : toFixed 3 (.finite s m k h : F32) = (signText s++whole)++ '.'::places := by
    simp [toFixed, fixedText, n, whole, places]
  have hne : whole ≠ [] := Nat.toDigits_ne_nil
  refine ⟨whole,dropZeros places,if dropZeros places = [] then [] else '.'::dropZeros places,?_,
    hne,toDigits_isDigit _,hz,?_⟩
  · rw [formatRate, ht, dropZeros_point, dropPoint_point _ _ hz]
    simp [hne]
  · split_ifs
    · exact .inl rfl
    · exact .inr rfl

theorem takeSign_signText (s : Bool) (whole tail : Text) (h : whole.all Char.isDigit = true)
    (hne : whole ≠ []) : takeSign (signText s++(whole++tail)) = (s,whole++tail) := by
  cases s with
  | false => exact takeSign_digits whole h hne tail
  | true => rfl

/-- Every rate that is written can be read. -/
theorem formatRate_parses (rate : F32) :
    ∃ x, parseFloat binary32 (formatRate rate) = some x := by
  cases rate with
  | nan => exact ⟨.nan,rfl⟩
  | infinite s => exact ⟨.infinite s,by cases s <;> rfl⟩
  | finite s m k h =>
    obtain ⟨whole,fraction,tail,he,hne,hw,hf,ht⟩ := formatRate_finite s m k h
    obtain ⟨x,hx⟩ := parseNumber_plain binary32 s whole fraction tail hw hne hf ht
    exact ⟨x,by simp [parseFloat, he, takeSign_signText s whole tail hw hne, hx]⟩

def visible (s : Text) : Bool := s.all (fun c => !isWhitespace c)

theorem isWhitespace_isDigit (c : Char) (h : c.isDigit = true) : isWhitespace c = false := by
  have hd := Char.isDigit_iff_toNat.mp h
  simp only [Char.reduceToNat] at hd
  simp only [isWhitespace, Bool.or_eq_false_iff, Bool.and_eq_false_iff, beq_eq_false_iff_ne,
    decide_eq_false_iff_not]
  omega

theorem visible_digits (s : Text) (h : s.all Char.isDigit = true) : visible s = true := by
  simp only [visible, List.all_eq_true, Bool.not_eq_true'] at h ⊢
  exact fun c hc => isWhitespace_isDigit c (h c hc)

theorem visible_append (s t : Text) : visible (s++t) = (visible s && visible t) :=
  List.all_append

theorem formatRate_visible (rate : F32) : visible (formatRate rate) = true := by
  cases rate with
  | nan => decide
  | infinite s => cases s <;> decide
  | finite s m k h =>
    obtain ⟨whole,fraction,tail,he,_,hw,hf,ht⟩ := formatRate_finite s m k h
    rw [he, visible_append, visible_append, visible_digits whole hw]
    have hs : visible (signText s) = true := by cases s <;> decide
    have hfv := visible_digits fraction hf
    rcases ht with rfl | rfl
    · rw [hs]
      rfl
    · rw [hs]
      exact hfv

/-- A value without white space can be written under either key. -/
theorem plain_visible (key value : Text) (h : visible value = true) (hk : trim key = key)
    (hs : skipped key = false) (he : '=' ∉ key) (hf : '\n' ∉ key) : Plain key value := by
  simp only [visible, List.all_eq_true, Bool.not_eq_true'] at h
  constructor
  · exact hk
  · exact hs
  · exact he
  · exact hf
  · exact trim_eq_self value (fun c hc => h c (List.mem_of_mem_head? hc))
      (fun c hc => h c (List.mem_of_getLast? hc))
  · exact fun hm => absurd (h '\n' hm) (by decide)

theorem plain_port : Plain portKey defaultPortText :=
  plain_visible portKey defaultPortText (visible_digits _ (toDigits_isDigit _)) (by decide)
    (by decide) (by decide) (by decide)

theorem plain_rate (options : ClientOptions) : Plain rateKey (rateText options) :=
  plain_visible rateKey (rateText options) (formatRate_visible _) (by decide) (by decide)
    (by decide) (by decide)

end RlStatsApi.ClientConfig
