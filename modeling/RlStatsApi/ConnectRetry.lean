import RlStatsApi.PythonClient

/-!
# Connecting with retries

Each attempt prepares the connection anew and may write the INI file. The
first attempt that connects ends the loop, and so does the last one that is
allowed. Where the file answers, all attempts go to the same connection, and
it is only the peer that decides.
-/

set_option autoImplicit false

namespace RlStatsApi.ConnectRetry
open RlStatsApi.TextLines RlStatsApi.Error RlStatsApi.ClientConfig RlStatsApi.IniText
open RlStatsApi.ReturningCalls RlStatsApi.RepeatedCalls RlStatsApi.PythonClient
open RlStatsApi.ConfigPolicy (someIni zeroRate)

/-- The result, `none` when the preparation panics, and the file it leaves. -/
def connect (options : ClientOptions) (a : Attempt) (file : Option Text) :
    Option (Outcome RlClient) × Option Text :=
  match prepareConnectionConfig options {a.disk with contents := file} with
  | (none,left) => (none,left)
  | (some (.error e),left) => (some (.error e),left)
  | (some (.ok connection),left) => (some (connectSocket connection a.peer),left)

/-- The bindings connect in the same way. -/
theorem session_connect (s : Session) (a : Attempt) :
    s.connect a = match connect s.options a s.file with
      | (none,left) => (.error .panic,{s with file := left})
      | (some (.error e),left) => (.error (.runtime e),{s with file := left})
      | (some (.ok client),left) =>
        (.ok (),{s with client := some client, closed := s.closed++s.client.toList, file := left}) := by
  unfold Session.connect connect
  rcases prepareConnectionConfig s.options {a.disk with contents := s.file} with
    ⟨_ | _ | connection,left⟩
  · rfl
  · rfl
  · cases hc : connectSocket connection a.peer <;> simp only [hc]

section Loop

variable (options : ClientOptions) (world : ℕ → Attempt)

/-- The attempts from one of them on, while there are some left. -/
def attemptFrom : ℕ → ℕ → Option Text → Option (Outcome RlClient) × Option Text
  | 0, _, file => (none,file)
  | left+1, attempt, file =>
    match connect options (world attempt) file with
    | (some (.error e),file) =>
      if left = 0 then (some (.error e),file) else attemptFrom left (attempt+1) file
    | (some (.ok client),file) => (some (.ok client),file)
    | (none,file) => (none,file)

def connectWithRetry (maxAttempts : ℕ) (file : Option Text) :
    Option (Outcome RlClient) × Option Text :=
  attemptFrom options world (max maxAttempts 1) 0 file

/-! ## Which attempt counts -/

/-- The file before an attempt when all before it have failed. -/
def fileBefore (file : Option Text) : ℕ → Option Text
  | 0 => file
  | k+1 => (connect options (world k) (fileBefore file k)).2

def attempted (file : Option Text) (k : ℕ) : Option (Outcome RlClient) × Option Text :=
  connect options (world k) (fileBefore options world file k)

def failed (r : Option (Outcome RlClient) × Option Text) : Prop := ∃ e, r.1 = some (.error e)

theorem attempt_failed (left k : ℕ) (file : Option Text)
    (h : failed (attempted options world file k)) :
    attemptFrom options world (left+2) k (fileBefore options world file k) =
      attemptFrom options world (left+1) (k+1) (fileBefore options world file (k+1)) := by
  obtain ⟨e,he⟩ := h
  rw [attempted] at he
  rw [attemptFrom, fileBefore]
  cases hc : connect options (world k) (fileBefore options world file k) with
  | mk r left' =>
    rw [hc] at he
    cases he
    exact if_neg (Nat.succ_ne_zero left)

theorem attempt_last (left k : ℕ) (file : Option Text)
    (h : failed (attempted options world file k) → left = 0) :
    attemptFrom options world (left+1) k (fileBefore options world file k) =
      attempted options world file k := by
  rw [attemptFrom, attempted]
  rw [attempted] at h
  cases hc : connect options (world k) (fileBefore options world file k) with
  | mk r left' =>
    rw [hc] at h
    cases r with
    | none => rfl
    | some r =>
      cases r with
      | ok client => rfl
      | error e => exact if_pos (h ⟨e,rfl⟩)

theorem attempts_skipped (left j k : ℕ) (file : Option Text)
    (h : ∀ i < k, failed (attempted options world file (j+i))) :
    attemptFrom options world (left+1+k) j (fileBefore options world file j) =
      attemptFrom options world (left+1) (j+k) (fileBefore options world file (j+k)) := by
  induction k generalizing j with
  | zero => rfl
  | succ k ih =>
    have hnext := ih (j+1) (fun i hi => by
      have hi' := h (i+1) (by omega)
      rwa [← Nat.add_assoc, Nat.add_right_comm] at hi')
    have hleft : left+1+(k+1) = (left+k)+2 := by omega
    have hleft' : left+k+1 = left+1+k := by omega
    have hplace : j+1+k = j+(k+1) := by omega
    rw [hleft, attempt_failed options world (left+k) j file (h 0 (by omega)), hleft', hnext, hplace]

/-- The attempt that counts is the first that does not fail, or the last. -/
theorem retry_counts (maxAttempts k : ℕ) (file : Option Text) (hk : k < max maxAttempts 1)
    (hbefore : ∀ j < k, failed (attempted options world file j))
    (hlast : failed (attempted options world file k) → k+1 = max maxAttempts 1) :
    connectWithRetry options world maxAttempts file = attempted options world file k := by
  obtain ⟨left,hleft⟩ : ∃ left, max maxAttempts 1 = left+1+k :=
    ⟨max maxAttempts 1-(k+1),by omega⟩
  rw [connectWithRetry, hleft]
  have hskip := attempts_skipped options world left 0 k file (fun i hi => by
    rw [Nat.zero_add]
    exact hbefore i hi)
  rw [Nat.zero_add] at hskip
  exact hskip.trans (attempt_last options world left k file (fun h => by
    have := hlast h
    omega))

/-! ## When the file answers -/

variable (path : IniPath) (before : Text) (cfg : ConnectionConfig)
  (hp : options.statsApiIniPath = some path) (ha : AsciiLed before)
  (hc : (prepareConnectionConfig options (Disk.holding before)).1 = some (.ok cfg))
  (hw : ∀ i, (world i).Sound)

include hp ha hc hw

/-- Every attempt prepares the same connection. -/
theorem attempted_same (k : ℕ) :
    fileBefore options world (some before) k = some (fileAfter options before k) ∧
    ∃ cfg', SameConnection cfg cfg' ∧ attempted options world (some before) k =
      (some (connectSocket cfg' (world k).peer),some (fileAfter options before (k+1))) := by
  have hstep : ∀ k, fileBefore options world (some before) k = some (fileAfter options before k) →
      ∃ cfg', SameConnection cfg cfg' ∧ attempted options world (some before) k =
        (some (connectSocket cfg' (world k).peer),some (fileAfter options before (k+1))) := by
    intro k hfile
    obtain ⟨hascii,cfg',hcfg,hsame⟩ := every_call_repeats options path before cfg hp ha hc k
    obtain ⟨r,after,hcall,_⟩ := prepare_completes options path _ hp hascii
    rw [hcall] at hcfg
    cases hcfg
    refine ⟨cfg',hsame,?_⟩
    rw [attempted, hfile, connect, hw k, hcall, fileAfter, hcall]
    rfl
  have hall : ∀ k, fileBefore options world (some before) k =
      some (fileAfter options before k) := by
    intro k
    induction k with
    | zero => rfl
    | succ k ih =>
      obtain ⟨_,_,hattempt⟩ := hstep k ih
      exact congrArg Prod.snd hattempt
  exact ⟨hall k,hstep k (hall k)⟩

theorem attempted_failed (k : ℕ) :
    failed (attempted options world (some before) k) ↔ (world k).peer = none := by
  obtain ⟨_,cfg',_,hattempt⟩ := attempted_same options world path before cfg hp ha hc hw k
  rw [hattempt]
  cases hpeer : (world k).peer with
  | none => exact ⟨fun _ => rfl,fun _ => ⟨_,rfl⟩⟩
  | some peer =>
    constructor
    · rintro ⟨e,he⟩
      cases he
    · intro h
      cases h

end Loop

/-- Where the first preparation succeeds and the file answers later on, the
client is connected to the first peer that accepts within the attempts, with
the first configuration, and without one the error is the socket's. The file
is what as many calls leave as attempts were made. -/
theorem retry_connects (options : ClientOptions) (world : ℕ → Attempt) (path : IniPath)
    (before : Text) (cfg : ConnectionConfig) (hp : options.statsApiIniPath = some path)
    (ha : AsciiLed before)
    (hc : (prepareConnectionConfig options (Disk.holding before)).1 = some (.ok cfg))
    (hw : ∀ i, (world i).Sound) (maxAttempts : ℕ) :
    (∀ k < max maxAttempts 1, (∀ j < k, (world j).peer = none) →
      ∀ peer, (world k).peer = some peer → ∃ cfg', SameConnection cfg cfg' ∧
        connectWithRetry options world maxAttempts (some before) =
          (some (.ok (.over cfg' peer)),some (fileAfter options before (k+1)))) ∧
    ((∀ j < max maxAttempts 1, (world j).peer = none) →
      connectWithRetry options world maxAttempts (some before) =
        (some (.error .socketIo),some (fileAfter options before (max maxAttempts 1)))) := by
  have hfailed := attempted_failed options world path before cfg hp ha hc hw
  have hsame := attempted_same options world path before cfg hp ha hc hw
  constructor
  · intro k hk hbefore peer hpeer
    obtain ⟨_,cfg',hcfg,hattempt⟩ := hsame k
    refine ⟨cfg',hcfg,?_⟩
    rw [retry_counts options world maxAttempts k _ hk (fun j hj => (hfailed j).mpr (hbefore j hj))
      (fun h => by rw [hfailed k, hpeer] at h; cases h), hattempt, hpeer]
    rfl
  · intro hnone
    obtain ⟨k,hk⟩ : ∃ k, max maxAttempts 1 = k+1 := ⟨max maxAttempts 1-1,by omega⟩
    obtain ⟨_,cfg',_,hattempt⟩ := hsame k
    rw [retry_counts options world maxAttempts k _ (by omega)
      (fun j hj => (hfailed j).mpr (hnone j (by omega))) (fun _ => hk.symm), hattempt,
      hnone k (by omega), hk]
    rfl

/-- The game listens from the third attempt on. -/
def thirdTime (i : ℕ) : Attempt := ⟨Disk.holding [],if i < 2 then none else some ⟨[],[]⟩⟩

theorem third_time_connects : ∃ cfg',
    SameConnection ⟨"127.0.0.1",49150,49124,defaultPacketSendRate,some someIni,true⟩ cfg' ∧
    connectWithRetry {statsApiIniPath := some someIni} thirdTime 20 (some zeroRate) =
      (some (.ok (.over cfg' ⟨[],[]⟩)),
        some (fileAfter {statsApiIniPath := some someIni} zeroRate 3)) := by
  obtain ⟨hconnects,_⟩ := retry_connects {statsApiIniPath := some someIni} thirdTime someIni zeroRate
    ⟨"127.0.0.1",49150,49124,defaultPacketSendRate,some someIni,true⟩ rfl (by decide +kernel)
    (by decide +kernel) (fun _ _ => rfl) 20
  refine hconnects 2 (by decide) (fun j hj => ?_) ⟨[],[]⟩ rfl
  simp [thirdTime, hj]

end RlStatsApi.ConnectRetry
