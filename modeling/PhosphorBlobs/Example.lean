import PhosphorBlobs.Ipmi
import PhosphorBlobs.Lib.Overlay

/-! The example handler, from example.hpp and example.cpp: a staging buffer for each session
of one path. The constructor of a session leaves its buffer as it finds it, so what stands
there is an input of open. The meta that stat fills in comes to it empty and is never null. -/
namespace PhosphorBlobs

def kBufferSize : Nat := 1024

namespace StateFlags

def open_read : UInt16 := (1 : UInt16) <<< 0
def open_write : UInt16 := (1 : UInt16) <<< 1

end StateFlags

structure Buffer where
  bytes : List UInt8
  sized : bytes.length = kBufferSize

/-- memcpy out of the array. -/
def Buffer.load (buffer : Buffer) (offset n : Nat) : Except Fault (List UInt8) :=
  subspanCount buffer.bytes offset n

/-- memcpy into the array. -/
def Buffer.store (buffer : Buffer) (offset : Nat) (data : List UInt8) : Except Fault Buffer :=
  if room : offset + data.length ≤ kBufferSize then
    .ok ⟨Overlay.write buffer.bytes ⟨offset, data⟩, by
      rw [Overlay.length_write (by rw [buffer.sized]; exact room), buffer.sized]⟩
  else .error .outOfBounds

structure ExampleBlob where
  sessionId : UInt16
  flags : UInt16
  state : UInt16
  length : UInt32
  buffer : Buffer

def ExampleBlob.new (id flags : UInt16) (buffer : Buffer) : ExampleBlob :=
  ⟨id, flags, StateFlags.open_read ||| StateFlags.open_write, 0, buffer⟩

structure ExampleBlobHandler where
  sessions : Table UInt16 ExampleBlob

abbrev OnExample := ExceptT Fault (StateM ExampleBlobHandler)

namespace ExampleBlobHandler

/-- "/dev/fake/command" -/
def supportedPath : Path := [47, 100, 101, 118, 47, 102, 97, 107, 101, 47, 99, 111, 109, 109, 97, 110, 100]

def getSession (id : UInt16) : OnExample (Option ExampleBlob) := return (← get).sessions.lookup id

def canHandleBlob (path : Path) : OnExample Bool := return path == supportedPath

def getBlobIds : OnExample (List Path) := return [supportedPath]

def deleteBlob (_ : Path) : OnExample Bool := return false

def stat (_ : Path) : OnExample (Option BlobMeta) := return none

def «open» (garbage : Buffer) (session flags : UInt16) (path : Path) : OnExample Bool := do
  if !(← canHandleBlob path) then return false
  else if ((← get).sessions.lookup session).isSome then return false
  else
    modify fun x => { x with sessions := x.sessions.insert session (.new session flags garbage) }
    return true

def read (session : UInt16) (offset requestedSize : UInt32) : OnExample (List UInt8) := do
  let some sess ← getSession session | return []
  if offset.toNat ≥ kBufferSize then return []
  else
    let remain := UInt32.ofNat (sizeSub kBufferSize offset.toNat)
    let numBytes := min remain requestedSize
    sess.buffer.load offset.toNat numBytes.toNat

def write (session : UInt16) (offset : UInt32) (data : List UInt8) : OnExample Bool := do
  let some sess ← getSession session | return false
  if offset.toNat ≥ kBufferSize then return false
  else
    let remain := UInt32.ofNat (sizeSub kBufferSize offset.toNat)
    if data.length > remain.toNat then return false
    else
      let length := UInt32.ofNat (max (offset.toNat + data.length) sess.length.toNat)
      let buffer ← sess.buffer.store offset.toNat data
      modify fun x => { x with sessions := x.sessions.insert session { sess with length, buffer } }
      return true

def writeMeta (_ : UInt16) (_ : UInt32) (_ : List UInt8) : OnExample Bool := return false

def commit (session : UInt16) (_ : List UInt8) : OnExample Bool := do
  let some _ ← getSession session | return false
  return false

def close (session : UInt16) : OnExample Bool := do
  let some _ ← getSession session | return false
  modify fun x => { x with sessions := x.sessions.erase session }
  return true

def sessionStat (session : UInt16) : OnExample (Option BlobMeta) := do
  let some sess ← getSession session | return none
  return some ⟨sess.state, sess.length, []⟩

def expire (session : UInt16) : OnExample Bool := do
  let some _ ← getSession session | return false
  return false

/-- The virtual method that a call of the manager reaches. -/
def method (garbage : Buffer) : (call : HandlerCall) → OnExample call.Answer
  | .canHandleBlob path => canHandleBlob path
  | .getBlobIds => getBlobIds
  | .deleteBlob path => deleteBlob path
  | .stat path => stat path
  | .open session flags path => ExampleBlobHandler.open garbage session flags path
  | .read session offset requestedSize => read session offset requestedSize
  | .write session offset data => write session offset data
  | .writeMeta session offset data => writeMeta session offset data
  | .commit session data => commit session data
  | .close session => close session
  | .sessionStat session => sessionStat session
  | .expire session => expire session

end ExampleBlobHandler

end PhosphorBlobs
