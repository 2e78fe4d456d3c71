import PhosphorBlobs.Manager.Ledger

/-! The manager with one table. What openFiles and openSessions say is in the session map as
well, so a manager that scans the map wherever the code looks into one of them is a simpler
account of the same behaviour. It leaves the other two tables empty. -/
namespace PhosphorBlobs

variable {H : Type}

namespace Plain

variable [DecidableEq H]

/-- The sessions of the handler that are due, in ascending order. -/
def staleSessions (timeNow : Time) (handler : H) (m : BlobManager H) : List SessionId :=
  (m.sessions.matching fun item => decide (item.handler = some handler ∧
    timeNow - item.lastActionTime ≥ m.sessionTimeout)).sort

def eraseSession (session : SessionId) (m : BlobManager H) : BlobManager H :=
  { m with sessions := m.sessions.erase session }

def expireEach (A : Answers H) (handler : H) : List SessionId → OnWorld H Unit
  | [] => pure ()
  | sessionId :: rest => do
    let expired ← invoke A handler (.expire sessionId)
    onManager fun m => ((), if expired then eraseSession sessionId m else m)
    expireEach A handler rest

def cleanUpStaleSessions (A : Answers H) (timeNow : Time) (handler : H) : OnWorld H Unit := do
  expireEach A handler (staleSessions timeNow handler (← get).manager)

def associate (now : Time) (handler : H) (session : SessionId) (flags : UInt16) (path : Path)
    (m : BlobManager H) : BlobManager H :=
  { m with sessions := m.sessions.insert session ⟨path, some handler, flags, now⟩ }

def «open» (A : Answers H) (clock : Clock) (flags : UInt16) (path : Path) (session : Bool) :
    OnWorld H BlobManager.Opened := do
  let some handler ← BlobManager.getHandler A path | return .refused none
  let some id ← onManager (BlobManager.getSession session) | return .refused none
  if flags &&& (OpenFlags.read ||| OpenFlags.write) = 0 then return .refused (some id)
  else
    cleanUpStaleSessions A clock.first handler
    if ← invoke A handler (.open id flags path) then
      onManager fun m => ((), associate clock.second handler id flags path m)
      return .opened id
    else return .refused (some id)

def close (A : Answers H) (clock : Clock) (session : SessionId) : OnWorld H Bool := do
  let some handler ← onManager (BlobManager.getActionHandler clock.first session BlobManager.anyFlags)
    | return false
  if ← invoke A handler (.close session) then
    onManager fun m => ((), eraseSession session m)
    return true
  else return false

def deleteBlob (A : Answers H) (path : Path) : OnWorld H Bool := do
  let some handler ← BlobManager.getHandler A path | return false
  let count : Int ← onManager fun m => (Table.tally (onPath path) m.sessions, m)
  if count > 0 then return false
  else invoke A handler (.deleteBlob path)

/-- The other requests do not look into the two tables in the first place. -/
def manager (A : Answers H) (clock : Clock) : ManagerInterface H (OnWorld H)
  | .open flags path session => Plain.open A clock flags path session
  | .close session => close A clock session
  | .deleteBlob path => deleteBlob A path
  | call => blobManager A clock call

def step (A : Answers H) (w : World H) (request : Clock × ManagerCall H) : Record H × World H :=
  let done := manager A request.1 request.2 w
  (⟨request.1, request.2, done.1, done.2.calls.drop w.calls.length⟩, done.2)

end Plain

def BlobManager.plain (m : BlobManager H) : BlobManager H := { m with openFiles := ∅, openSessions := ∅ }

def World.plain (w : World H) : World H := ⟨w.manager.plain, w.calls⟩

/-- The second computation does without the two tables what the first does with them. -/
def Mirrors {α : Type} (x y : OnWorld H α) (w : World H) : Prop :=
  y w.plain = ((x w).1, (x w).2.plain)

section Mirrors

variable {A : Answers H} {w : World H} {α β : Type}

theorem Mirrors.bind {x y : OnWorld H α} {f g : α → OnWorld H β} (first : Mirrors x y w)
    (second : Mirrors (f (x w).1) (g (x w).1) (x w).2) : Mirrors (x >>= f) (y >>= g) w := by
  have run : (y >>= g) w.plain = g (y w.plain).1 (y w.plain).2 := rfl
  unfold Mirrors
  rw [run, first]
  exact second

theorem Mirrors.pure (a : α) : Mirrors (Pure.pure a) (Pure.pure a) w := rfl

theorem Mirrors.invoke (h : H) (call : HandlerCall) : Mirrors (invoke A h call) (invoke A h call) w :=
  rfl

theorem Mirrors.onManager {f g : OnManager H α}
    (same : g w.manager.plain = ((f w.manager).1, (f w.manager).2.plain)) :
    Mirrors (onManager f) (onManager g) w := by
  unfold Mirrors
  rw [onManager_apply, onManager_apply]
  exact congrArg (fun done : α × BlobManager H => (done.1, (⟨done.2, w.calls⟩ : World H))) same

theorem Mirrors.get {f g : World H → OnWorld H β} (second : Mirrors (f w) (g w.plain) w) :
    Mirrors (get >>= f) (get >>= g) w := second

theorem findHandler_mirrors (path : Path) (hs : List H) (w : World H) :
    Mirrors (BlobManager.findHandler A path hs) (BlobManager.findHandler A path hs) w := by
  induction hs generalizing w with
  | nil => exact .pure none
  | cons h rest ih =>
    refine .bind (.invoke h _) ?_
    cases (PhosphorBlobs.invoke A h (.canHandleBlob path) w).1 with
    | true => exact .pure (some h)
    | false => exact ih _

theorem getHandler_mirrors (path : Path) (w : World H) :
    Mirrors (BlobManager.getHandler A path) (BlobManager.getHandler A path) w :=
  findHandler_mirrors path w.manager.handlers w

theorem getSession_mirrors (session : Bool) (w : World H) :
    Mirrors (onManager (BlobManager.getSession session)) (onManager (BlobManager.getSession session)) w := by
  apply Mirrors.onManager
  cases session <;> rfl

theorem getActionHandler_mirrors (now : Time) (session : SessionId) (required : UInt16) (w : World H) :
    Mirrors (onManager (BlobManager.getActionHandler now session required))
      (onManager (BlobManager.getActionHandler now session required)) w := by
  apply Mirrors.onManager
  unfold BlobManager.getActionHandler
  have same : w.manager.plain.sessions = w.manager.sessions := rfl
  rw [same]
  cases w.manager.sessions.lookup session with
  | none => rfl
  | some item =>
    simp only
    split <;> rfl

theorem collectBlobIds_mirrors (hs : List H) (w : World H) :
    Mirrors (BlobManager.collectBlobIds A hs) (BlobManager.collectBlobIds A hs) w := by
  induction hs generalizing w with
  | nil => exact .pure ()
  | cons h rest ih =>
    apply Mirrors.bind (.invoke h .getBlobIds)
    apply Mirrors.bind (.onManager rfl)
    apply ih

theorem onSession_mirrors (clock : Clock) (session : SessionId) (required : UInt16)
    (call : HandlerCall) (refusal : call.Answer) (w : World H) :
    Mirrors (BlobManager.onSession A clock session required call refusal)
      (BlobManager.onSession A clock session required call refusal) w := by
  apply Mirrors.bind (getActionHandler_mirrors clock.first session required w)
  cases (onManager (BlobManager.getActionHandler clock.first session required) w).1 with
  | none => exact .pure refusal
  | some h => exact .invoke h call

variable [DecidableEq H]

theorem eraseSession_plain (h : H) (s : SessionId) (m : BlobManager H) :
    Plain.eraseSession s m.plain = (m.eraseSession h s).plain := by
  obtain ⟨handlers, sessionTimeout, ids, next⟩ := m.eraseSession_keeps h s
  have sessions := m.eraseSession_sessions h s
  simp only [Plain.eraseSession, BlobManager.plain, handlers, sessionTimeout, ids, next, sessions]

theorem expireEach_mirrors (h : H) (ids : List SessionId) (w : World H) :
    Mirrors (BlobManager.expireEach A h ids) (Plain.expireEach A h ids) w := by
  induction ids generalizing w with
  | nil => exact .pure ()
  | cons id rest ih =>
    apply Mirrors.bind (.invoke h (.expire id))
    refine Mirrors.bind (.onManager ?_) (ih _)
    cases (invoke A h (.expire id) w).1 with
    | true => exact congrArg (Prod.mk ()) (eraseSession_plain h id w.manager)
    | false => rfl

theorem mem_staleSessions {m : BlobManager H} (tables : Tables m) {timeNow : Time} {h : H}
    {s : SessionId} :
    s ∈ m.sessions.matching (fun item => decide (item.handler = some h ∧
      timeNow - item.lastActionTime ≥ m.sessionTimeout)) ↔ s ∈ m.heldBy h ∧ m.Stale timeNow s := by
  rw [Table.mem_matching, tables.held]
  constructor
  · rintro ⟨item, known, due⟩
    obtain ⟨owner, since⟩ := of_decide_eq_true due
    exact ⟨⟨item, known, owner⟩, item, known, since⟩
  · rintro ⟨⟨item, known, owner⟩, other, also, since⟩
    rw [known] at also
    cases also
    exact ⟨item, known, decide_eq_true ⟨owner, since⟩⟩

theorem staleSessions_collected {m : BlobManager H} (tables : Tables m) (timeNow : Time) (h : H) :
    Plain.staleSessions timeNow h m.plain =
      (BlobManager.collectExpired timeNow (m.heldBy h).elems ∅ m).1.elems := by
  obtain ⟨_, member⟩ := BlobManager.collectExpired_present timeNow m (m.heldBy h).elems
    (fun s inside => tables.present h s inside) ∅
  refine (OrderedSet.elems_sorted fun s => ?_).symm
  rw [member, or_iff_right (OrderedSet.not_mem_empty s)]
  exact (mem_staleSessions tables).symm

theorem cleanUpStaleSessions_mirrors (timeNow : Time) (h : H) {w : World H}
    (tables : Tables w.manager) :
    Mirrors (BlobManager.cleanUpStaleSessions A timeNow h) (Plain.cleanUpStaleSessions A timeNow h) w := by
  have scan := staleSessions_collected tables timeNow h
  have plain : Plain.cleanUpStaleSessions A timeNow h w.plain =
      Plain.expireEach A h (Plain.staleSessions timeNow h w.manager.plain) w.plain := rfl
  have whole : BlobManager.cleanUpStaleSessions A timeNow h w =
      BlobManager.expireEach A h (Plain.staleSessions timeNow h w.manager.plain) w := by
    rw [scan]
    cases known : w.manager.openSessions.lookup h with
    | none =>
      have nobody : w.manager.heldBy h = ∅ := by
        rw [BlobManager.heldBy, known]
        rfl
      rw [nobody]
      simp [BlobManager.cleanUpStaleSessions, known, BlobManager.expireEach,
        BlobManager.collectExpired]
    | some held =>
      have here : w.manager.heldBy h = held := by
        rw [BlobManager.heldBy, known]
        rfl
      have same := (BlobManager.collectExpired_present timeNow w.manager held.elems
        (fun s inside => tables.present h s (here ▸ inside)) ∅).1
      simp [BlobManager.cleanUpStaleSessions, known, here, same]
  unfold Mirrors
  rw [plain, whole]
  exact expireEach_mirrors h _ w

theorem open_mirrors (clock : Clock) (flags : UInt16) (path : Path) (session : Bool) {w : World H}
    (tables : Tables w.manager) :
    Mirrors (BlobManager.open A clock flags path session) (Plain.open A clock flags path session) w := by
  obtain ⟨probes, _, asked⟩ := getHandler_routed A path w
  apply Mirrors.bind (getHandler_mirrors path w)
  cases (BlobManager.getHandler A path w).1 with
  | none => exact .pure _
  | some h =>
    rw [asked]
    apply Mirrors.bind (getSession_mirrors session (w.log probes))
    cases (onManager (BlobManager.getSession session) (w.log probes)).1 with
    | none => exact .pure _
    | some id =>
      have kept : Tables (onManager (BlobManager.getSession session) (w.log probes)).2.manager :=
        tables.issued session
      simp only
      split
      · exact .pure _
      · apply Mirrors.bind (cleanUpStaleSessions_mirrors clock.first h kept)
        apply Mirrors.bind (.invoke h _)
        cases (invoke A h (.open id flags path) _).1 with
        | true => exact .bind (.onManager rfl) (.pure _)
        | false => exact .pure _

theorem close_mirrors (clock : Clock) (session : SessionId) (w : World H) :
    Mirrors (BlobManager.close A clock session) (Plain.close A clock session) w := by
  apply Mirrors.bind (getActionHandler_mirrors clock.first session BlobManager.anyFlags w)
  cases (onManager (BlobManager.getActionHandler clock.first session BlobManager.anyFlags) w).1 with
  | none => exact .pure _
  | some h =>
    apply Mirrors.bind (.invoke h (.close session))
    cases (invoke A h (.close session) _).1 with
    | true =>
      refine .bind (.onManager ?_) (.pure _)
      exact congrArg (Prod.mk ()) (eraseSession_plain h session _)
    | false => exact .pure _

theorem subscript_tally {m : BlobManager H} (tables : Tables m) (path : Path) :
    (m.openFiles.subscript 0 path).1 = Table.tally (onPath path) m.sessions := by
  have counted := tables.counted path
  unfold BlobManager.openCount at counted
  unfold Table.subscript
  cases known : m.openFiles.lookup path with
  | none =>
    rw [known] at counted
    exact counted
  | some n =>
    rw [known] at counted
    exact counted

theorem deleteBlob_mirrors (path : Path) {w : World H} (tables : Tables w.manager) :
    Mirrors (BlobManager.deleteBlob A path) (Plain.deleteBlob A path) w := by
  obtain ⟨probes, _, asked⟩ := getHandler_routed A path w
  apply Mirrors.bind (getHandler_mirrors path w)
  cases (BlobManager.getHandler A path w).1 with
  | none => exact .pure _
  | some h =>
    rw [asked]
    refine Mirrors.bind (.onManager ?_) ?_
    · rw [log_manager, subscript_tally tables]
      rfl
    · simp only
      split
      · exact .pure _
      · exact .invoke h (.deleteBlob path)

theorem manager_mirrors (clock : Clock) (call : ManagerCall H) {w : World H}
    (tables : Tables w.manager) : Mirrors (blobManager A clock call) (Plain.manager A clock call) w := by
  cases call with
  | registerHandler handler => cases handler <;> exact .onManager rfl
  | buildBlobList =>
    apply Mirrors.bind (.onManager rfl)
    apply Mirrors.get
    apply Mirrors.bind (collectBlobIds_mirrors _ _)
    exact .get (.pure _)
  | getBlobId index =>
    apply Mirrors.onManager
    unfold BlobManager.getBlobId
    have same : w.manager.plain.ids = w.manager.ids := rfl
    rw [same]
    split <;> rfl
  | «open» flags path session => exact open_mirrors clock flags path session tables
  | stat path =>
    apply Mirrors.bind (getHandler_mirrors path w)
    cases (BlobManager.getHandler A path w).1 with
    | none => exact .pure _
    | some h => exact .invoke h (.stat path)
  | close session => exact close_mirrors clock session w
  | deleteBlob path => exact deleteBlob_mirrors path tables
  | sessionStat _ | commit _ _ | read _ _ _ | write _ _ _ | writeMeta _ _ _ =>
    exact onSession_mirrors clock _ _ _ _ w

end Mirrors

/-- The two further tables are there for speed only. A manager without them makes the same
calls and gives the same answers in every run, and it ends with the same sessions. -/
theorem tables_are_redundant [DecidableEq H] (A : Answers H) (sessionTimeout : Time) (next : UInt16)
    (requests : List (Clock × ManagerCall H)) :
    Machine.run (Plain.step A) (World.fresh sessionTimeout next) requests =
      ((history A sessionTimeout next requests).1, (history A sessionTimeout next requests).2.plain) := by
  have mirrored : ∀ (w : World H) (request : Clock × ManagerCall H), Sound w →
      Plain.step A w.plain request = ((step A w request).1, (step A w request).2.plain) := by
    intro w request sound
    have same := manager_mirrors (A := A) request.1 request.2 sound.tables
    unfold Mirrors at same
    simp only [Plain.step, step, same]
    rfl
  exact Machine.run_projects (step A) (Plain.step A) World.plain
    (fun w request sound => sound.step request) mirrored (.fresh sessionTimeout next) requests

end PhosphorBlobs
