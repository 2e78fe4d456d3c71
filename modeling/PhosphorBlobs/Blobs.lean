import PhosphorBlobs.Lib.Journal

/-! The interface between the manager and the blob handlers, from blobs-ipmid/blobs.hpp.
A handler is known by its pointer only. Whatever it answers may depend on every call
any handler has received before, so nothing is assumed about the code behind it. -/
namespace PhosphorBlobs

/-- The bytes of a std::string. -/
abbrev Path := List UInt8

abbrev SessionId := UInt16

namespace OpenFlags

def read : UInt16 := (1 : UInt16) <<< 0
def write : UInt16 := (1 : UInt16) <<< 1

end OpenFlags

structure BlobMeta where
  blobState : UInt16
  size : UInt32
  metadata : List UInt8
  deriving DecidableEq

/-- The virtual methods of GenericBlobInterface with their arguments. The two overloads of
stat are told apart by name. -/
inductive HandlerCall where
  | canHandleBlob (path : Path)
  | getBlobIds
  | deleteBlob (path : Path)
  | stat (path : Path)
  | open (session : SessionId) (flags : UInt16) (path : Path)
  | read (session : SessionId) (offset requestedSize : UInt32)
  | write (session : SessionId) (offset : UInt32) (data : List UInt8)
  | writeMeta (session : SessionId) (offset : UInt32) (data : List UInt8)
  | commit (session : SessionId) (data : List UInt8)
  | close (session : SessionId)
  | sessionStat (session : SessionId)
  | expire (session : SessionId)
  deriving DecidableEq

/-- A stat that returns false leaves nothing its caller reads, so its meta is an option. -/
abbrev HandlerCall.Answer : HandlerCall → Type
  | .getBlobIds => List Path
  | .read .. => List UInt8
  | .stat _ | .sessionStat _ => Option BlobMeta
  | .canHandleBlob _ | .deleteBlob _ | .open .. | .write .. | .writeMeta .. | .commit ..
  | .close _ | .expire _ => Bool

def HandlerCall.session? : HandlerCall → Option SessionId
  | .canHandleBlob _ | .getBlobIds | .deleteBlob _ | .stat _ => none
  | .open s .. | .read s .. | .write s .. | .writeMeta s .. | .commit s _ | .close s
  | .sessionStat s | .expire s => some s

structure Event (H : Type) where
  handler : H
  call : HandlerCall
  answer : call.Answer

/-- The handlers: an answer to every call, given the calls made so far, oldest first. -/
abbrev Answers (H : Type) := H → (call : HandlerCall) → List (Event H) → call.Answer

end PhosphorBlobs
