import RlStatsApi.DecimalText
import RlStatsApi.Error
import RlStatsApi.JsonValue

/-!
# Commands and their wire shape

A command is validated before it is written and after it is read. The writer
omits absent members and empty texts; the reader checks each member it
finds. Every valid command is written, and it is read again as the command
without its empty texts. Whatever is read can be written, and what is
written for it stays the same from then on. The printer of a rejected member
is a parameter.
-/

set_option autoImplicit false

namespace RlStatsApi.StatsCommands
open RlStatsApi.JsonValue RlStatsApi.Error RlStatsApi.DecimalText RlStatsApi.BinaryFloat

abbrev U32 := Fin (2^32)

inductive Perspective where
  | fly
  | softAttach
  | hardAttach
  | playerView
  | autoCam
  | cameraDirector
  deriving DecidableEq

def Perspective.all : List Perspective :=
  [.fly,.softAttach,.hardAttach,.playerView,.autoCam,.cameraDirector]

def Perspective.asStr : Perspective → String
  | .fly => "Fly"
  | .softAttach => "SoftAttach"
  | .hardAttach => "HardAttach"
  | .playerView => "PlayerView"
  | .autoCam => "AutoCam"
  | .cameraDirector => "Camera_Director"

def Perspective.fromName (name : String) : Option Perspective :=
  Perspective.all.find? (fun perspective => perspective.asStr = name)

inductive PovFocus where
  | ball
  | player (shortcut : U32)
  deriving DecidableEq

def PovFocus.toWire : PovFocus → String
  | .ball => "Ball"
  | .player shortcut => String.ofList (Nat.toDigits 10 shortcut)

def PovFocus.fromWire (raw : String) : Option PovFocus :=
  if raw = "Ball" then some .ball
  else if raw.toList = [] ∨ raw.toList.all Char.isDigit = false then none
  else (parseUnsigned (2^32) raw.toList).map .player

inductive StatsCommand where
  | changePov (focus : Option PovFocus) (perspective : Option Perspective)
  | loadReplay (fileName path : Option String)
  | seekReplay (frame : Option U64) (timeSeconds : Option F64)
  | setGameSpeed (speed : F64)
  | setHudVisibility (visible : Bool)
  | setMatchPaused (paused : Bool)
  deriving DecidableEq

def StatsCommand.names : List String :=
  ["ChangePOV","LoadReplay","SeekReplay","SetGameSpeed","SetHUDVisibility","SetMatchPaused"]

def StatsCommand.name : StatsCommand → String
  | .changePov .. => "ChangePOV"
  | .loadReplay .. => "LoadReplay"
  | .seekReplay .. => "SeekReplay"
  | .setGameSpeed .. => "SetGameSpeed"
  | .setHudVisibility .. => "SetHUDVisibility"
  | .setMatchPaused .. => "SetMatchPaused"

def isBlank (value : Option String) : Bool :=
  match value with
  | none => true
  | some text => text = ""

/-- Not a finite number, or below zero. -/
def unusable (x : F64) : Bool := !x.isFinite || x.lt (zero binary64)

def StatsCommand.validate (c : StatsCommand) : Outcome Unit :=
  let invalid (reason : String) : Outcome Unit := .error (.invalidCommand c.name reason)
  match c with
  | .changePov none none => invalid "at least one of Focus or Perspective is required"
  | .loadReplay fileName path =>
    if isBlank fileName && isBlank path then invalid "one of FileName or Path is required"
    else .ok ()
  | .seekReplay none none => invalid "one of Frame or TimeSeconds is required"
  | .seekReplay _ (some time) =>
    if unusable time then invalid "TimeSeconds must be a finite, non-negative number"
    else .ok ()
  | .setGameSpeed speed =>
    if unusable speed then invalid "Speed must be a finite, non-negative number" else .ok ()
  | _ => .ok ()

def entry {α : Type} (key : String) (value : α → Value) (a : Option α) : Members :=
  (a.map (fun a => (key,value a))).toList

/-- The members of `Data` in the order in which they are inserted. -/
def StatsCommand.data : StatsCommand → Members
  | .changePov focus perspective =>
    entry "Focus" (fun f => .string f.toWire) focus++
      entry "Perspective" (fun p => .string p.asStr) perspective
  | .loadReplay fileName path =>
    entry "FileName" .string (fileName.filter (fun v => v ≠ ""))++
      entry "Path" .string (path.filter (fun v => v ≠ ""))
  | .seekReplay frame timeSeconds =>
    entry "Frame" (fun n => .number (.ofU64 n)) frame++
      entry "TimeSeconds" .ofF64 timeSeconds
  | .setGameSpeed speed => [("Speed",.ofF64 speed)]
  | .setHudVisibility visible => [("bVisible",.bool visible)]
  | .setMatchPaused paused => [("bPaused",.bool paused)]

def StatsCommand.toValue (c : StatsCommand) : Outcome Value := do
  c.validate
  return .ofMembers [("Command",.string c.name),("Data",.ofMembers c.data)]

section Reading

variable (invalid : String → RlStatsError)

/-- A member that is read when it is there, with the text of its refusal. -/
def optionalMember {α : Type} (data : Members) (key : String) (from' : Value → Option α)
    (reason : Value → String) : Outcome (Option α) :=
  match data.lookup key with
  | none => .ok none
  | some raw =>
    match from' raw with
    | some a => .ok (some a)
    | none => .error (invalid (reason raw))

def optionalString (data : Members) (key : String) : Outcome (Option String) :=
  optionalMember invalid data key Value.asStr (fun _ => key++" must be a string")

def optionalF64 (data : Members) (key : String) : Outcome (Option F64) :=
  optionalMember invalid data key Value.asF64 (fun _ => key++" must be a number")

def requiredBool (data : Members) (key : String) : Outcome Bool :=
  match (data.lookup key).bind Value.asBool with
  | some b => .ok b
  | none => .error (invalid (key++" must be a boolean"))

end Reading

def focusReason (display : Value → String) (raw : Value) : String :=
  "Focus must be \"Ball\" or a spectator shortcut written as digits, received "++display raw

def perspectiveReason (display : Value → String) (raw : Value) : String :=
  "Perspective must be one of "++
    ", ".intercalate (Perspective.all.map Perspective.asStr)++", received "++display raw

/-- The command of a name, from the members of its `Data`. -/
def StatsCommand.fromData (display : Value → String) (name : String) (data : Members) :
    Outcome StatsCommand :=
  let invalid := RlStatsError.invalidCommand name
  match name with
  | "ChangePOV" => do
    let focus ← optionalMember invalid data "Focus"
      (fun raw => raw.asStr.bind PovFocus.fromWire) (focusReason display)
    let perspective ← optionalMember invalid data "Perspective"
      (fun raw => raw.asStr.bind Perspective.fromName) (perspectiveReason display)
    return .changePov focus perspective
  | "LoadReplay" => do
    let fileName ← optionalString invalid data "FileName"
    let path ← optionalString invalid data "Path"
    return .loadReplay fileName path
  | "SeekReplay" => do
    let frame ← optionalMember invalid data "Frame" Value.asU64
      (fun _ => "Frame must be a non-negative integer")
    let timeSeconds ← optionalF64 invalid data "TimeSeconds"
    return .seekReplay frame timeSeconds
  | "SetGameSpeed" => do
    match ← optionalF64 invalid data "Speed" with
    | some speed => return .setGameSpeed speed
    | none => .error (invalid "Speed is required")
  | "SetHUDVisibility" => do
    let visible ← requiredBool invalid data "bVisible"
    return .setHudVisibility visible
  | "SetMatchPaused" => do
    let paused ← requiredBool invalid data "bPaused"
    return .setMatchPaused paused
  | _ => .error (invalid
      ("unsupported command; expected one of "++", ".intercalate StatsCommand.names))

def StatsCommand.fromValue (display : Value → String) (value : Value) : Outcome StatsCommand :=
  match (value.get "Command").bind Value.asStr with
  | none => .error (.invalidCommand "" "missing Command string")
  | some name => do
    let data := ((value.get "Data").bind Value.asObject).getD []
    let command ← StatsCommand.fromData display name data
    command.validate
    return command

/-! ## Reading what was written -/

theorem Perspective.fromName_asStr (p : Perspective) : fromName p.asStr = some p := by
  cases p <;> decide

theorem PovFocus.fromWire_toWire (f : PovFocus) : fromWire f.toWire = some f := by
  cases f with
  | ball => rfl
  | player n =>
    have hd := toDigits_isDigit n
    have hball : String.ofList (Nat.toDigits 10 n) ≠ "Ball" := by
      intro h
      have hl : Nat.toDigits 10 n = "Ball".toList := by
        rw [← h, String.toList_ofList]
      rw [hl] at hd
      exact absurd hd (by decide)
    rw [toWire, fromWire, if_neg hball, String.toList_ofList, if_neg]
    · rw [parseUnsigned_toDigits]
      rfl
    · rintro (h | h)
      · exact Nat.toDigits_ne_nil h
      · exact absurd (hd.symm.trans h) (by decide)

theorem lookup_entries {α β : Type} (k1 k2 : String) (hk : k1 ≠ k2) (v1 : α → Value)
    (v2 : β → Value) (a : Option α) (b : Option β) :
    (SortedAssoc.insertAll (entry k1 v1 a++entry k2 v2 b) []).lookup k1 = a.map v1 ∧
    (SortedAssoc.insertAll (entry k1 v1 a++entry k2 v2 b) []).lookup k2 = b.map v2 := by
  rw [SortedAssoc.lookup_insertAll, SortedAssoc.lookup_insertAll]
  cases a <;> cases b <;> simp [entry, SortedAssoc.lookup_entry, hk, hk.symm]

theorem optionalMember_of_lookup {α : Type} (invalid : String → RlStatsError) (data : Members)
    (key : String) (value : α → Value) (from' : Value → Option α) (reason : Value → String)
    (a : Option α) (hl : data.lookup key = a.map value)
    (hf : ∀ x, a = some x → from' (value x) = some x) :
    optionalMember invalid data key from' reason = .ok a := by
  rw [optionalMember, hl]
  cases a with
  | none => rfl
  | some x => simp [hf x rfl]

theorem isBlank_filter (value : Option String) :
    isBlank (value.filter (fun v => v ≠ "")) = isBlank value := by
  cases value with
  | none => rfl
  | some v => by_cases hv : v = "" <;> simp [isBlank, Option.filter, hv]

theorem asF64_ofF64 (x : F64) (h : unusable x = false) : (Value.ofF64 x).asF64 = some x := by
  have hx : x.isFinite = true := by simp [unusable] at h; exact h.1
  rw [Value.ofF64_finite x hx]
  rfl

/-- The command that the wire shape of a command stands for: an empty text is
an absent one. -/
def StatsCommand.sent : StatsCommand → StatsCommand
  | .loadReplay fileName path =>
    .loadReplay (fileName.filter (fun v => v ≠ "")) (path.filter (fun v => v ≠ ""))
  | c => c

theorem sent_validate (c : StatsCommand) : c.sent.validate = c.validate := by
  cases c with
  | loadReplay fileName path => simp only [StatsCommand.sent, StatsCommand.validate,
      isBlank_filter, StatsCommand.name]
  | _ => rfl

theorem toValue_ok (c : StatsCommand) (h : c.validate = .ok ()) :
    c.toValue = .ok (.ofMembers [("Command",.string c.name),("Data",.ofMembers c.data)]) := by
  rw [StatsCommand.toValue, h]
  rfl

variable (display : Value → String)

theorem seekReplay_time (frame : Option U64) (time : F64)
    (h : (StatsCommand.seekReplay frame (some time)).validate = .ok ()) :
    unusable time = false := by
  by_contra hu
  simp [StatsCommand.validate, hu] at h

theorem setGameSpeed_speed (speed : F64)
    (h : (StatsCommand.setGameSpeed speed).validate = .ok ()) : unusable speed = false := by
  by_contra hu
  simp [StatsCommand.validate, hu] at h

theorem fromData_written (c : StatsCommand) (h : c.validate = .ok ()) :
    StatsCommand.fromData display c.name (SortedAssoc.insertAll c.data []) = .ok c.sent := by
  cases c with
  | changePov focus perspective =>
    obtain ⟨hl1,hl2⟩ := lookup_entries "Focus" "Perspective" (by decide)
      (fun f => .string (PovFocus.toWire f)) (fun p => .string (Perspective.asStr p))
      focus perspective
    have h1 := optionalMember_of_lookup (.invalidCommand "ChangePOV") _ _ _
      (fun raw => raw.asStr.bind PovFocus.fromWire) (focusReason display) focus hl1
      (fun f _ => PovFocus.fromWire_toWire f)
    have h2 := optionalMember_of_lookup (.invalidCommand "ChangePOV") _ _ _
      (fun raw => raw.asStr.bind Perspective.fromName) (perspectiveReason display) perspective hl2
      (fun p _ => Perspective.fromName_asStr p)
    simp only [StatsCommand.fromData, StatsCommand.name, StatsCommand.data, h1, h2]
    rfl
  | loadReplay fileName path =>
    obtain ⟨hl1,hl2⟩ := lookup_entries "FileName" "Path" (by decide) Value.string Value.string
      (fileName.filter (fun v => v ≠ "")) (path.filter (fun v => v ≠ ""))
    have h1 := optionalMember_of_lookup (.invalidCommand "LoadReplay") _ _ _ Value.asStr
      (fun _ => "FileName"++" must be a string") _ hl1 (fun _ _ => rfl)
    have h2 := optionalMember_of_lookup (.invalidCommand "LoadReplay") _ _ _ Value.asStr
      (fun _ => "Path"++" must be a string") _ hl2 (fun _ _ => rfl)
    simp only [StatsCommand.fromData, StatsCommand.name, StatsCommand.data, optionalString, h1, h2]
    rfl
  | seekReplay frame timeSeconds =>
    obtain ⟨hl1,hl2⟩ := lookup_entries "Frame" "TimeSeconds" (by decide)
      (fun n => .number (.ofU64 n)) Value.ofF64 frame timeSeconds
    have h1 := optionalMember_of_lookup (.invalidCommand "SeekReplay") _ _ _ Value.asU64
      (fun _ => "Frame must be a non-negative integer") _ hl1 (fun _ _ => rfl)
    have h2 := optionalMember_of_lookup (.invalidCommand "SeekReplay") _ _ _ Value.asF64
      (fun _ => "TimeSeconds"++" must be a number") _ hl2
      (fun time ht => asF64_ofF64 time (seekReplay_time frame time (ht ▸ h)))
    simp only [StatsCommand.fromData, StatsCommand.name, StatsCommand.data, optionalF64, h1, h2]
    rfl
  | setGameSpeed speed =>
    have h1 := optionalMember_of_lookup (.invalidCommand "SetGameSpeed")
      (SortedAssoc.insertAll [("Speed",.ofF64 speed)] []) "Speed" Value.ofF64 Value.asF64
      (fun _ => "Speed"++" must be a number") (some speed) rfl
      (fun x hx => Option.some.inj hx ▸ asF64_ofF64 speed (setGameSpeed_speed speed h))
    simp only [StatsCommand.fromData, StatsCommand.name, StatsCommand.data, optionalF64, h1]
    rfl
  | setHudVisibility visible => rfl
  | setMatchPaused paused => rfl

theorem fromValue_of_data (value : Value) (name : String) (data : Members) (c : StatsCommand)
    (hn : (value.get "Command").bind Value.asStr = some name)
    (hd : (value.get "Data").bind Value.asObject = some data)
    (hc : StatsCommand.fromData display name data = .ok c) (hv : c.validate = .ok ()) :
    StatsCommand.fromValue display value = .ok c := by
  simp only [StatsCommand.fromValue, hn, hd, Option.getD_some, hc]
  show (do c.validate; return c) = _
  rw [hv]
  rfl

theorem written_get (c : StatsCommand) (k : String) :
    (Value.ofMembers [("Command",.string c.name),("Data",.ofMembers c.data)]).get k =
      [("Data",.ofMembers c.data),("Command",.string c.name)].lookup k := by
  rw [Value.ofMembers, Value.get, SortedAssoc.lookup_insertAll]
  simp

theorem fromValue_written (c : StatsCommand) (h : c.validate = .ok ()) :
    StatsCommand.fromValue display
      (.ofMembers [("Command",.string c.name),("Data",.ofMembers c.data)]) = .ok c.sent := by
  apply fromValue_of_data display _ c.name (SortedAssoc.insertAll c.data [])
  · rw [written_get]
    rfl
  · rw [written_get]
    rfl
  · exact fromData_written display c h
  · exact (sent_validate c).trans h

theorem filter_text (value : Option String) (h : value ≠ some "") :
    value.filter (fun v => v ≠ "") = value := by
  cases value with
  | none => rfl
  | some v =>
    have hv : v ≠ "" := fun he => h (he ▸ rfl)
    simp [Option.filter, hv]

/-- A valid command is written, and read again without its empty texts; with
none of these it is read again as it was. -/
theorem valid_command_read_again (c : StatsCommand) (h : c.validate = .ok ()) :
    ∃ v, c.toValue = .ok v ∧ StatsCommand.fromValue display v = .ok c.sent ∧
      ((∀ fileName path, c = .loadReplay fileName path → fileName ≠ some "" ∧ path ≠ some "") →
        StatsCommand.fromValue display v = .ok c) := by
  refine ⟨_,toValue_ok c h,fromValue_written display c h,?_⟩
  intro hne
  rw [fromValue_written display c h]
  cases c with
  | loadReplay fileName path =>
    obtain ⟨h1,h2⟩ := hne fileName path rfl
    simp only [StatsCommand.sent, filter_text _ h1, filter_text _ h2]
  | _ => rfl

theorem change_pov_read_again : ∃ v,
    StatsCommand.toValue (.changePov (some (.player 7)) (some .cameraDirector)) = .ok v ∧
    StatsCommand.fromValue (fun _ => "") v =
      .ok (.changePov (some (.player 7)) (some .cameraDirector)) := by
  obtain ⟨v,hv,hs,_⟩ := valid_command_read_again (fun _ => "")
    (.changePov (some (.player 7)) (some .cameraDirector)) rfl
  exact ⟨v,hv,hs⟩

/-- An empty path next to a file name is valid, and is lost. -/
theorem empty_path_lost : ¬ ∀ c : StatsCommand, c.validate = .ok () →
    (c.toValue >>= StatsCommand.fromValue (fun _ => "")) = .ok c := by
  intro h
  have hc := h (.loadReplay (some "replay") (some "")) rfl
  have hlost : ((StatsCommand.loadReplay (some "replay") (some "")).toValue >>=
      StatsCommand.fromValue (fun _ => "")) = .ok (.loadReplay (some "replay") none) := rfl
  rw [hlost] at hc
  cases hc

/-! ## Sending what was accepted -/

theorem sent_name (c : StatsCommand) : c.sent.name = c.name := by
  cases c <;> rfl

theorem filter_filter_text (value : Option String) :
    (value.filter (fun v => v ≠ "")).filter (fun v => v ≠ "") = value.filter (fun v => v ≠ "") := by
  apply filter_text
  intro h
  simpa using (Option.filter_eq_some_iff.mp h).2

theorem sent_data (c : StatsCommand) : c.sent.data = c.data := by
  cases c with
  | loadReplay fileName path =>
    simp only [StatsCommand.sent, StatsCommand.data, filter_filter_text]
  | _ => rfl

/-- A command and the one that it is read again as are sent alike. -/
theorem sent_toValue (c : StatsCommand) (h : c.validate = .ok ()) :
    c.sent.toValue = c.toValue := by
  rw [toValue_ok c h, toValue_ok c.sent ((sent_validate c).trans h), sent_name, sent_data]

theorem bind_ok {α β : Type} (x : Outcome α) (f : α → Outcome β) (b : β)
    (h : (x >>= f) = .ok b) : ∃ a, x = .ok a ∧ f a = .ok b := by
  cases x with
  | error e => cases h
  | ok a => exact ⟨a,rfl,h⟩

theorem fromData_name (name : String) (data : Members) (c : StatsCommand)
    (h : StatsCommand.fromData display name data = .ok c) : c.name = name := by
  unfold StatsCommand.fromData at h
  split at h
  · obtain ⟨_,_,h⟩ := bind_ok _ _ _ h
    obtain ⟨_,_,h⟩ := bind_ok _ _ _ h
    cases h
    rfl
  · obtain ⟨_,_,h⟩ := bind_ok _ _ _ h
    obtain ⟨_,_,h⟩ := bind_ok _ _ _ h
    cases h
    rfl
  · obtain ⟨_,_,h⟩ := bind_ok _ _ _ h
    obtain ⟨_,_,h⟩ := bind_ok _ _ _ h
    cases h
    rfl
  · obtain ⟨speed,_,h⟩ := bind_ok _ _ _ h
    cases speed with
    | none => cases h
    | some speed =>
      cases h
      rfl
  · obtain ⟨_,_,h⟩ := bind_ok _ _ _ h
    cases h
    rfl
  · obtain ⟨_,_,h⟩ := bind_ok _ _ _ h
    cases h
    rfl
  · cases h

theorem fromValue_ok (value : Value) (c : StatsCommand)
    (h : StatsCommand.fromValue display value = .ok c) :
    value.get "Command" = some (.string c.name) ∧ c.validate = .ok () := by
  unfold StatsCommand.fromValue at h
  cases hn : (value.get "Command").bind Value.asStr with
  | none => simp [hn] at h
  | some name =>
    simp only [hn] at h
    obtain ⟨c',hc,h⟩ := bind_ok _ _ _ h
    obtain ⟨_,hv,h⟩ := bind_ok _ _ _ h
    cases h
    obtain ⟨raw,hr,hs⟩ := Option.bind_eq_some_iff.mp hn
    rw [fromData_name display name _ c hc, hr]
    cases raw with
    | string s =>
      cases hs
      exact ⟨rfl,hv⟩
    | _ => cases hs

theorem data_nonempty (c : StatsCommand) (h : c.validate = .ok ()) : c.data ≠ [] := by
  cases c with
  | changePov focus perspective =>
    cases focus with
    | some f => simp [StatsCommand.data, entry]
    | none =>
      cases perspective with
      | some p => simp [StatsCommand.data, entry]
      | none => cases h
  | loadReplay fileName path =>
    have hb : ¬ (isBlank fileName = true ∧ isBlank path = true) := by
      intro hb
      simp [StatsCommand.validate, hb.1, hb.2] at h
    have hentry : ∀ (key : String) (text : Option String), isBlank text = false →
        entry key Value.string (text.filter (fun v => v ≠ "")) ≠ [] := by
      intro key text ht
      cases text with
      | none => cases ht
      | some v =>
        have hv : v ≠ "" := by simpa [isBlank] using ht
        simp [entry, Option.filter, hv]
    rw [StatsCommand.data, Ne, List.append_eq_nil_iff]
    rintro ⟨h1,h2⟩
    by_cases hf : isBlank fileName = true
    · have hp : isBlank path = false := by simpa [hf] using hb
      exact hentry "Path" path hp h2
    · exact hentry "FileName" fileName (by simpa using hf) h1
  | seekReplay frame timeSeconds =>
    cases frame with
    | some n => simp [StatsCommand.data, entry]
    | none =>
      cases timeSeconds with
      | some x => simp [StatsCommand.data, entry]
      | none => cases h
  | _ => simp [StatsCommand.data]

def numericKeys : List String := ["Frame","TimeSeconds","Speed"]

/-- A number that is not below zero. -/
def Amount (x : Value) : Prop := ∃ n : Number, x = .number n ∧ 0 ≤ n.toRat

theorem amount_ofF64 (x : F64) (h : unusable x = false) : Amount (.ofF64 x) := by
  simp only [unusable, Bool.or_eq_false_iff, Bool.not_eq_false'] at h
  exact ⟨.float x h.1,Value.ofF64_finite x h.1,toRat_nonneg x h.2 h.1⟩

theorem amount_ofU64 (n : U64) : Amount (.number (.ofU64 n)) :=
  ⟨_,rfl,Nat.cast_nonneg n.val⟩

theorem data_amounts (c : StatsCommand) (h : c.validate = .ok ()) :
    ∀ p ∈ c.data, p.1 ∈ numericKeys → Amount p.2 := by
  rintro ⟨key,x⟩ hp hk
  cases c with
  | changePov focus perspective =>
    simp only [StatsCommand.data, entry, List.mem_append, Option.mem_toList,
      Option.map_eq_some_iff] at hp
    rcases hp with ⟨_,_,he⟩ | ⟨_,_,he⟩ <;> cases he <;> simp [numericKeys] at hk
  | loadReplay fileName path =>
    simp only [StatsCommand.data, entry, List.mem_append, Option.mem_toList,
      Option.map_eq_some_iff] at hp
    rcases hp with ⟨_,_,he⟩ | ⟨_,_,he⟩ <;> cases he <;> simp [numericKeys] at hk
  | seekReplay frame timeSeconds =>
    simp only [StatsCommand.data, entry, List.mem_append, Option.mem_toList,
      Option.map_eq_some_iff] at hp
    rcases hp with ⟨n,_,he⟩ | ⟨time,ht,he⟩
    · cases he
      exact amount_ofU64 n
    · cases he
      exact amount_ofF64 time (seekReplay_time frame time (ht ▸ h))
  | setGameSpeed speed =>
    cases List.mem_singleton.mp hp
    exact amount_ofF64 speed (setGameSpeed_speed speed h)
  | setHudVisibility visible =>
    cases List.mem_singleton.mp hp
    simp [numericKeys] at hk
  | setMatchPaused paused =>
    cases List.mem_singleton.mp hp
    simp [numericKeys] at hk

/-- The wire shape of a command: its name, and members of which those that
are numbers are amounts. -/
structure Wire (name : String) (v : Value) : Prop where
  command : v.get "Command" = some (.string name)
  data : ∃ m, v.get "Data" = some (.object m) ∧ m ≠ [] ∧
    ∀ p ∈ m, p.1 ∈ numericKeys → Amount p.2

theorem written_wire (c : StatsCommand) (h : c.validate = .ok ()) :
    Wire c.name (.ofMembers [("Command",.string c.name),("Data",.ofMembers c.data)]) := by
  refine ⟨?_,SortedAssoc.insertAll c.data [],?_,?_,?_⟩
  · rw [written_get]
    rfl
  · rw [written_get]
    rfl
  · intro he
    obtain ⟨p,rest,hp⟩ := List.exists_cons_of_ne_nil (data_nonempty c h)
    have hl := SortedAssoc.lookup_insertAll c.data [] p.1
    rw [he, hp, List.reverse_cons, List.lookup_append] at hl
    cases hr : rest.reverse.lookup p.1 <;> simp [hr, SortedAssoc.lookup_entry] at hl
  · intro p hp
    rcases SortedAssoc.mem_insertAll c.data [] p hp with hp | hp
    · exact data_amounts c h p hp
    · cases hp

/-- What is accepted can be sent, and what is sent for it is accepted and
sent again unchanged. -/
theorem accepted_command_sent (value : Value) (c : StatsCommand)
    (h : StatsCommand.fromValue display value = .ok c) :
    ∃ name v c', value.get "Command" = some (.string name) ∧ c.toValue = .ok v ∧ Wire name v ∧
      StatsCommand.fromValue display v = .ok c' ∧ c'.toValue = .ok v := by
  obtain ⟨hn,hv⟩ := fromValue_ok display value c h
  have ht := toValue_ok c hv
  exact ⟨c.name,_,c.sent,hn,ht,written_wire c hv,fromValue_written display c hv,
    (sent_toValue c hv).trans ht⟩

/-- A shortcut with leading zeros, next to a member that no command has. -/
def spectator : Value :=
  .object [("Command",.string "ChangePOV"),("Data",.object [("Extra",.null),("Focus",.string "007")])]

theorem spectator_sent :
    ∃ name v c', spectator.get "Command" = some (.string name) ∧
      (StatsCommand.changePov (some (.player 7)) none).toValue = .ok v ∧ Wire name v ∧
      StatsCommand.fromValue (fun _ => "") v = .ok c' ∧ c'.toValue = .ok v :=
  accepted_command_sent (fun _ => "") spectator (.changePov (some (.player 7)) none) rfl

end RlStatsApi.StatsCommands
