import PhosphorBlobs.Blobs
import PhosphorBlobs.Lib.OrderedSet
import PhosphorBlobs.Lib.Table

/-! The blob manager, from manager.hpp and manager.cpp. The world is the manager together
with the record of every handler call. A clock reading is an input of the request that
takes it. Diagnostics written to std::cerr are left out. -/
namespace PhosphorBlobs

/-- Ticks of the steady clock, and lengths of time in the same unit. -/
abbrev Time := Int

/-- The two readings one request can take: the first in getActionHandler or at the head of
cleanUpStaleSessions, the second when open builds the new SessionInfo. -/
structure Clock where
  first : Time
  second : Time

instance sessionIdOrder : LinearOrder UInt16 where
  le_refl a := UInt16.le_refl a
  le_trans _ _ _ := UInt16.le_trans
  lt_iff_le_not_ge _ _ := by simp only [UInt16.lt_iff_toNat_lt, UInt16.le_iff_toNat_le]; omega
  le_antisymm _ _ := UInt16.le_antisymm
  le_total a b := UInt16.le_total a b
  toDecidableLE := inferInstance

/-- A null handler pointer is none. -/
structure SessionInfo (H : Type) where
  blobId : Path
  handler : Option H
  flags : UInt16
  lastActionTime : Time

/-- What operator[] of the session map creates for a missing key. -/
def SessionInfo.default (now : Time) : SessionInfo H := ⟨[], none, 0, now⟩

structure BlobManager (H : Type) where
  sessionTimeout : Time
  next : UInt16
  ids : List Path
  handlers : List H
  sessions : Table SessionId (SessionInfo H)
  openFiles : Table Path Int
  openSessions : Table H (OrderedSet SessionId)

/-- A manager as constructed: next is taken from std::time, so any value. -/
def BlobManager.fresh (sessionTimeout : Time) (next : UInt16) : BlobManager H :=
  ⟨sessionTimeout, next, [], [], ∅, ∅, ∅⟩

structure World (H : Type) where
  manager : BlobManager H
  calls : List (Event H)

abbrev OnManager (H : Type) := StateM (BlobManager H)
abbrev OnWorld (H : Type) := StateM (World H)

def onManager (f : OnManager H α) : OnWorld H α := fun w =>
  ((f w.manager).1, { w with manager := (f w.manager).2 })

/-- A virtual call on a handler: answered by the handler and recorded. -/
def invoke (A : Answers H) (h : H) (call : HandlerCall) : OnWorld H call.Answer := fun w =>
  let answer := A h call w.calls
  (answer, { w with calls := w.calls ++ [⟨h, call, answer⟩] })

namespace BlobManager

def registerHandler (handler : Option H) : OnManager H Bool := fun m =>
  match handler with
  | none => (false, m)
  | some h => (true, { m with handlers := m.handlers ++ [h] })

def collectBlobIds (A : Answers H) : List H → OnWorld H Unit
  | [] => pure ()
  | h :: rest => do
    let blobs ← invoke A h .getBlobIds
    onManager fun m => ((), { m with ids := m.ids ++ blobs })
    collectBlobIds A rest

def buildBlobList (A : Answers H) : OnWorld H UInt32 := do
  onManager fun m => ((), { m with ids := [] })
  collectBlobIds A (← get).manager.handlers
  return UInt32.ofNat (← get).manager.ids.length

def getBlobId (index : UInt32) : OnManager H Path := fun m =>
  if index.toNat ≥ m.ids.length then ([], m) else (m.ids.getD index.toNat [], m)

/-- The body of the do-while for at most `left` more values of tries; tries runs from 0
while ++tries < 0xffff, so the body is entered 0xffff times at most. -/
def probe (sessions : Table SessionId (SessionInfo H)) : Nat → UInt16 → Option SessionId × UInt16
  | 0, next => (none, next)
  | left + 1, next =>
    if (sessions.lookup next).isNone then (some next, next + 1) else probe sessions left (next + 1)

/-- The argument says whether the pointer is non-null; a result is the id stored through it. -/
def getSession (sess : Bool) : OnManager H (Option SessionId) := fun m =>
  if !sess then (none, m)
  else
    let found := probe m.sessions 0xffff m.next
    (found.1, { m with next := found.2 })

/-- std::find_if over the registered handlers. -/
def findHandler (A : Answers H) (path : Path) : List H → OnWorld H (Option H)
  | [] => return none
  | h :: rest => do
    if ← invoke A h (.canHandleBlob path) then return some h
    else findHandler A path rest

def getHandler (A : Answers H) (path : Path) : OnWorld H (Option H) := do
  findHandler A path (← get).manager.handlers

/-- The default of requiredFlags. -/
def anyFlags : UInt16 := 0xffff

def getActionHandler (now : Time) (session : SessionId) (requiredFlags : UInt16) :
    OnManager H (Option H) := fun m =>
  match m.sessions.lookup session with
  | none => (none, m)
  | some item =>
    if item.flags &&& requiredFlags = 0 then (none, m)
    else (item.handler,
      { m with sessions := m.sessions.insert session { item with lastActionTime := now } })

variable [DecidableEq H]

def eraseSession (handler : H) (session : SessionId) (m : BlobManager H) : BlobManager H :=
  match m.sessions.lookup session with
  | none => m
  | some item =>
    let openSessions := m.openSessions.update ∅ (·.erase session) handler
    let openFiles := m.openFiles.update 0 (· - 1) item.blobId
    let openFiles :=
      if (openFiles.lookup item.blobId).getD 0 = 0 then openFiles.erase item.blobId else openFiles
    { m with openSessions, openFiles, sessions := m.sessions.erase session }

/-- The first loop of cleanUpStaleSessions, over openSessions[handler]. The lookup is
operator[], which inserts a default for a missing session. -/
def collectExpired (timeNow : Time) :
    List SessionId → OrderedSet SessionId → OnManager H (OrderedSet SessionId)
  | [], expiredSet, m => (expiredSet, m)
  | sessionId :: rest, expiredSet, m =>
    let found := m.sessions.subscript (SessionInfo.default timeNow) sessionId
    let m := { m with sessions := found.2 }
    if timeNow - found.1.lastActionTime ≥ m.sessionTimeout then
      collectExpired timeNow rest (expiredSet.insert sessionId) m
    else collectExpired timeNow rest expiredSet m

/-- The second loop of cleanUpStaleSessions, over expiredSet. -/
def expireEach (A : Answers H) (handler : H) : List SessionId → OnWorld H Unit
  | [] => pure ()
  | sessionId :: rest => do
    let expired ← invoke A handler (.expire sessionId)
    onManager fun m => ((), if expired then m.eraseSession handler sessionId else m)
    expireEach A handler rest

def cleanUpStaleSessions (A : Answers H) (timeNow : Time) (handler : H) : OnWorld H Unit := do
  match (← get).manager.openSessions.lookup handler with
  | none => return ()
  | some held =>
    let expiredSet ← onManager (collectExpired timeNow held.elems ∅)
    expireEach A handler expiredSet.elems

/-- The outcome of open: true with the id stored through the pointer, or false, where an id
may have been stored before the request was refused. -/
inductive Opened where
  | opened (session : SessionId)
  | refused (stored : Option SessionId)
  deriving DecidableEq

/-- The last three statements of open. -/
def associate (now : Time) (handler : H) (session : SessionId) (flags : UInt16) (path : Path)
    (m : BlobManager H) : BlobManager H :=
  { m with
    sessions := m.sessions.insert session ⟨path, some handler, flags, now⟩
    openSessions := m.openSessions.update ∅ (·.insert session) handler
    openFiles := m.openFiles.update 0 (· + 1) path }

def «open» (A : Answers H) (clock : Clock) (flags : UInt16) (path : Path) (session : Bool) :
    OnWorld H Opened := do
  let some handler ← getHandler A path | return .refused none
  let some id ← onManager (getSession session) | return .refused none
  if flags &&& (OpenFlags.read ||| OpenFlags.write) = 0 then return .refused (some id)
  else
    cleanUpStaleSessions A clock.first handler
    if ← invoke A handler (.open id flags path) then
      onManager fun m => ((), m.associate clock.second handler id flags path)
      return .opened id
    else return .refused (some id)

def stat (A : Answers H) (path : Path) : OnWorld H (Option BlobMeta) := do
  let some handler ← getHandler A path | return none
  invoke A handler (.stat path)

/-- The shape shared by the session requests: take the handler from getActionHandler and
forward one call to it, or answer the refusal. -/
def onSession (A : Answers H) (clock : Clock) (session : SessionId) (requiredFlags : UInt16)
    (call : HandlerCall) (refusal : call.Answer) : OnWorld H call.Answer := do
  let some handler ← onManager (getActionHandler clock.first session requiredFlags)
    | return refusal
  invoke A handler call

def sessionStat (A : Answers H) (clock : Clock) (session : SessionId) : OnWorld H (Option BlobMeta) :=
  onSession A clock session anyFlags (.sessionStat session) none

def commit (A : Answers H) (clock : Clock) (session : SessionId) (data : List UInt8) : OnWorld H Bool :=
  onSession A clock session anyFlags (.commit session data) false

def close (A : Answers H) (clock : Clock) (session : SessionId) : OnWorld H Bool := do
  let some handler ← onManager (getActionHandler clock.first session anyFlags) | return false
  if ← invoke A handler (.close session) then
    onManager fun m => ((), m.eraseSession handler session)
    return true
  else return false

def read (A : Answers H) (clock : Clock) (session : SessionId) (offset requestedSize : UInt32) :
    OnWorld H (List UInt8) :=
  onSession A clock session OpenFlags.read (.read session offset requestedSize) []

def write (A : Answers H) (clock : Clock) (session : SessionId) (offset : UInt32)
    (data : List UInt8) : OnWorld H Bool :=
  onSession A clock session OpenFlags.write (.write session offset data) false

def writeMeta (A : Answers H) (clock : Clock) (session : SessionId) (offset : UInt32)
    (data : List UInt8) : OnWorld H Bool :=
  onSession A clock session anyFlags (.writeMeta session offset data) false

def deleteBlob (A : Answers H) (path : Path) : OnWorld H Bool := do
  let some handler ← getHandler A path | return false
  let count ← onManager fun m =>
    let found := m.openFiles.subscript 0 path
    (found.1, { m with openFiles := found.2 })
  if count > 0 then return false
  else invoke A handler (.deleteBlob path)

end BlobManager

/-- The methods of ManagerInterface with their arguments. The session pointer of open is
reduced to whether it is null, see Opened. -/
inductive ManagerCall (H : Type) where
  | registerHandler (handler : Option H)
  | buildBlobList
  | getBlobId (index : UInt32)
  | open (flags : UInt16) (path : Path) (session : Bool)
  | stat (path : Path)
  | sessionStat (session : SessionId)
  | commit (session : SessionId) (data : List UInt8)
  | close (session : SessionId)
  | read (session : SessionId) (offset requestedSize : UInt32)
  | write (session : SessionId) (offset : UInt32) (data : List UInt8)
  | deleteBlob (path : Path)
  | writeMeta (session : SessionId) (offset : UInt32) (data : List UInt8)

abbrev ManagerCall.Answer : ManagerCall H → Type
  | .buildBlobList => UInt32
  | .getBlobId _ => Path
  | .open .. => BlobManager.Opened
  | .stat _ | .sessionStat _ => Option BlobMeta
  | .read .. => List UInt8
  | .registerHandler _ | .commit .. | .close _ | .write .. | .deleteBlob _ | .writeMeta .. => Bool

abbrev ManagerInterface (H : Type) (m : Type → Type) := (call : ManagerCall H) → m call.Answer

def blobManager [DecidableEq H] (A : Answers H) (clock : Clock) : ManagerInterface H (OnWorld H)
  | .registerHandler handler => onManager (BlobManager.registerHandler handler)
  | .buildBlobList => BlobManager.buildBlobList A
  | .getBlobId index => onManager (BlobManager.getBlobId index)
  | .open flags path session => BlobManager.open A clock flags path session
  | .stat path => BlobManager.stat A path
  | .sessionStat session => BlobManager.sessionStat A clock session
  | .commit session data => BlobManager.commit A clock session data
  | .close session => BlobManager.close A clock session
  | .read session offset requestedSize => BlobManager.read A clock session offset requestedSize
  | .write session offset data => BlobManager.write A clock session offset data
  | .deleteBlob path => BlobManager.deleteBlob A path
  | .writeMeta session offset data => BlobManager.writeMeta A clock session offset data

end PhosphorBlobs
