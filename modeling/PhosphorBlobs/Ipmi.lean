import PhosphorBlobs.Lib.Bytes
import PhosphorBlobs.Manager

/-! The blob commands, from ipmi.hpp and ipmi.cpp. A command decodes its request, calls the
manager once at most and lays out the reply, whose CRC is still zero. -/
namespace PhosphorBlobs

/-- enum BlobOEMCommands, with the values of its enumerators in order from zero. -/
inductive BlobOEMCommands where
  | bmcBlobGetCount
  | bmcBlobEnumerate
  | bmcBlobOpen
  | bmcBlobRead
  | bmcBlobWrite
  | bmcBlobCommit
  | bmcBlobClose
  | bmcBlobDelete
  | bmcBlobStat
  | bmcBlobSessionStat
  | bmcBlobWriteMeta
  deriving DecidableEq

/-- static_cast from the command byte. A value without enumerator is none: no map of the
code has it as a key. -/
def BlobOEMCommands.ofByte (cmd : UInt8) : Option BlobOEMCommands :=
  match cmd.toNat with
  | 0 => some .bmcBlobGetCount
  | 1 => some .bmcBlobEnumerate
  | 2 => some .bmcBlobOpen
  | 3 => some .bmcBlobRead
  | 4 => some .bmcBlobWrite
  | 5 => some .bmcBlobCommit
  | 6 => some .bmcBlobClose
  | 7 => some .bmcBlobDelete
  | 8 => some .bmcBlobStat
  | 9 => some .bmcBlobSessionStat
  | 10 => some .bmcBlobWriteMeta
  | _ => none

inductive Cc where
  | success
  | reqDataLenInvalid
  | invalidFieldRequest
  | responseError
  | unspecifiedError
  deriving DecidableEq

/-- ipmi::RspType of a byte vector. -/
structure Resp where
  cc : Cc
  payload : Option (List UInt8)
  deriving DecidableEq

def responseSuccess (output : List UInt8) : Resp := ⟨.success, some output⟩
def responseReqDataLenInvalid : Resp := ⟨.reqDataLenInvalid, none⟩
def responseInvalidFieldRequest : Resp := ⟨.invalidFieldRequest, none⟩
def responseResponseError : Resp := ⟨.responseError, none⟩
def responseUnspecifiedError : Resp := ⟨.unspecifiedError, none⟩

/-- Undefined behaviour of the source: an access outside of a buffer, or reading an optional
that is empty. -/
inductive Fault where
  | outOfBounds
  | emptyOptional
  deriving DecidableEq

def le16 (n : UInt16) : List UInt8 := Bytes.encode 2 n.toNat
def le32 (n : UInt32) : List UInt8 := Bytes.encode 4 n.toNat

def u16At (off : Nat) (data : List UInt8) : UInt16 := UInt16.ofNat (Bytes.field 2 off data)
def u32At (off : Nat) (data : List UInt8) : UInt32 := UInt32.ofNat (Bytes.field 4 off data)
def u8At (off : Nat) (data : List UInt8) : UInt8 := UInt8.ofNat (Bytes.field 1 off data)

/-- A packed request struct: its size and its value in the bytes of a little-endian host. -/
class Packed (α : Type) where
  sizeof : Nat
  load : List UInt8 → α

open Packed (sizeof)

/-- Copying the struct out of the front of a buffer, or reading it there through a cast
pointer. -/
def fetch (α : Type) [Packed α] (data : List UInt8) : Except Fault α :=
  if sizeof α ≤ data.length then .ok (Packed.load data) else .error .outOfBounds

def subspan (data : List UInt8) (offset : Nat) : Except Fault (List UInt8) :=
  if offset ≤ data.length then .ok (data.drop offset) else .error .outOfBounds

def subspanCount (data : List UInt8) (offset count : Nat) : Except Fault (List UInt8) :=
  if offset + count ≤ data.length then .ok ((data.drop offset).take count)
  else .error .outOfBounds

/-- a - b in size_t, which wraps. -/
def sizeSub (a b : Nat) : Nat := if b ≤ a then a - b else a + 2 ^ 64 - b

structure BmcBlobEnumerateTx where
  crc : UInt16
  blobIdx : UInt32

instance : Packed BmcBlobEnumerateTx := ⟨6, fun data => ⟨u16At 0 data, u32At 2 data⟩⟩

structure BmcBlobOpenTx where
  crc : UInt16
  flags : UInt16

instance : Packed BmcBlobOpenTx := ⟨4, fun data => ⟨u16At 0 data, u16At 2 data⟩⟩

structure BmcBlobCloseTx where
  crc : UInt16
  sessionId : UInt16

instance : Packed BmcBlobCloseTx := ⟨4, fun data => ⟨u16At 0 data, u16At 2 data⟩⟩

structure BmcBlobDeleteTx where
  crc : UInt16

instance : Packed BmcBlobDeleteTx := ⟨2, fun data => ⟨u16At 0 data⟩⟩

structure BmcBlobStatTx where
  crc : UInt16

instance : Packed BmcBlobStatTx := ⟨2, fun data => ⟨u16At 0 data⟩⟩

structure BmcBlobSessionStatTx where
  crc : UInt16
  sessionId : UInt16

instance : Packed BmcBlobSessionStatTx := ⟨4, fun data => ⟨u16At 0 data, u16At 2 data⟩⟩

structure BmcBlobCommitTx where
  crc : UInt16
  sessionId : UInt16
  commitDataLen : UInt8

instance : Packed BmcBlobCommitTx := ⟨5, fun data => ⟨u16At 0 data, u16At 2 data, u8At 4 data⟩⟩

structure BmcBlobReadTx where
  crc : UInt16
  sessionId : UInt16
  offset : UInt32
  requestedSize : UInt32

instance : Packed BmcBlobReadTx :=
  ⟨12, fun data => ⟨u16At 0 data, u16At 2 data, u32At 4 data, u32At 8 data⟩⟩

structure BmcBlobWriteTx where
  crc : UInt16
  sessionId : UInt16
  offset : UInt32

instance : Packed BmcBlobWriteTx := ⟨8, fun data => ⟨u16At 0 data, u16At 2 data, u32At 4 data⟩⟩

structure BmcBlobWriteMetaTx where
  crc : UInt16
  sessionId : UInt16
  offset : UInt32

instance : Packed BmcBlobWriteMetaTx := ⟨8, fun data => ⟨u16At 0 data, u16At 2 data, u32At 4 data⟩⟩

/-- The reply structs, as the bytes that are copied into the output. -/
def BmcBlobCountRx (crc : UInt16) (blobCount : UInt32) : List UInt8 := le16 crc ++ le32 blobCount

def BmcBlobEnumerateRx (crc : UInt16) : List UInt8 := le16 crc

def BmcBlobOpenRx (crc sessionId : UInt16) : List UInt8 := le16 crc ++ le16 sessionId

def BmcBlobStatRx (crc blobState : UInt16) (size : UInt32) (metadataLen : UInt8) : List UInt8 :=
  le16 crc ++ le16 blobState ++ le32 size ++ [metadataLen]

def BmcBlobReadRx (crc : UInt16) : List UInt8 := le16 crc

/-- The smallest string is one letter and the nul-terminator. -/
def kMinStrLen : Nat := 2

def minimumLengths : BlobOEMCommands → Option Nat
  | .bmcBlobGetCount => none
  | .bmcBlobEnumerate => some (sizeof BmcBlobEnumerateTx)
  | .bmcBlobOpen => some (sizeof BmcBlobOpenTx + kMinStrLen)
  | .bmcBlobClose => some (sizeof BmcBlobCloseTx)
  | .bmcBlobDelete => some (sizeof BmcBlobDeleteTx + kMinStrLen)
  | .bmcBlobStat => some (sizeof BmcBlobStatTx + kMinStrLen)
  | .bmcBlobSessionStat => some (sizeof BmcBlobSessionStatTx)
  | .bmcBlobCommit => some (sizeof BmcBlobCommitTx)
  | .bmcBlobRead => some (sizeof BmcBlobReadTx)
  | .bmcBlobWrite => some (sizeof BmcBlobWriteTx + 1)
  | .bmcBlobWriteMeta => some (sizeof BmcBlobWriteMetaTx + 1)

def validateRequestLength (command : Option BlobOEMCommands) (requestLen : Nat) : Bool :=
  match command.bind minimumLengths with
  | none => true
  | some least => if requestLen < least then false else true

/-- The string without its terminator, or the empty string. -/
def stringFromBuffer (data : List UInt8) : Path :=
  if data.isEmpty ∨ data.getLast? ≠ some 0 then [] else data.dropLast

abbrev IpmiBlobHandler (H : Type) (m : Type → Type) :=
  ManagerInterface H m → List UInt8 → ExceptT Fault m Resp

section Commands

variable {H : Type} {m : Type → Type} [Monad m]

def getBlobCount : IpmiBlobHandler H m := fun mgr _ => do
  let blobCount ← mgr .buildBlobList
  return responseSuccess (BmcBlobCountRx 0 blobCount)

def enumerateBlob : IpmiBlobHandler H m := fun mgr data => do
  let request ← fetch BmcBlobEnumerateTx data
  let blobId ← mgr (.getBlobId request.blobIdx)
  if blobId.isEmpty then return responseInvalidFieldRequest
  else return responseSuccess (BmcBlobEnumerateRx 0 ++ (blobId ++ [0]))

def openBlob : IpmiBlobHandler H m := fun mgr data => do
  let path := stringFromBuffer (← subspan data (sizeof BmcBlobOpenTx))
  if path.isEmpty then return responseReqDataLenInvalid
  else
    let request ← fetch BmcBlobOpenTx data
    match ← mgr (.open request.flags path true) with
    | .refused _ => return responseUnspecifiedError
    | .opened session => return responseSuccess (BmcBlobOpenRx 0 session)

def closeBlob : IpmiBlobHandler H m := fun mgr data => do
  if data.length < sizeof BmcBlobCloseTx then return responseReqDataLenInvalid
  else
    let request ← fetch BmcBlobCloseTx data
    if !(← mgr (.close request.sessionId)) then return responseUnspecifiedError
    else return responseSuccess []

def deleteBlob : IpmiBlobHandler H m := fun mgr data => do
  let path := stringFromBuffer (← subspan data (sizeof BmcBlobDeleteTx))
  if path.isEmpty then return responseReqDataLenInvalid
  else if !(← mgr (.deleteBlob path)) then return responseUnspecifiedError
  else return responseSuccess []

def returnStatBlob (info : BlobMeta) : Resp :=
  let output := BmcBlobStatRx 0 info.blobState info.size (UInt8.ofNat info.metadata.length)
  responseSuccess (if !info.metadata.isEmpty then output ++ info.metadata else output)

def statBlob : IpmiBlobHandler H m := fun mgr data => do
  let path := stringFromBuffer (← subspan data (sizeof BmcBlobStatTx))
  if path.isEmpty then return responseReqDataLenInvalid
  else
    match ← mgr (.stat path) with
    | none => return responseUnspecifiedError
    | some info => return returnStatBlob info

def sessionStatBlob : IpmiBlobHandler H m := fun mgr data => do
  if data.length < sizeof BmcBlobSessionStatTx then return responseReqDataLenInvalid
  else
    let request ← fetch BmcBlobSessionStatTx data
    match ← mgr (.sessionStat request.sessionId) with
    | none => return responseUnspecifiedError
    | some info => return returnStatBlob info

def commitBlob : IpmiBlobHandler H m := fun mgr data => do
  let request ← fetch BmcBlobCommitTx data
  if request.commitDataLen.toNat > sizeSub data.length (sizeof BmcBlobCommitTx) then
    return responseReqDataLenInvalid
  else
    let bytes ← subspanCount data (sizeof BmcBlobCommitTx) request.commitDataLen.toNat
    if !(← mgr (.commit request.sessionId bytes)) then return responseUnspecifiedError
    else return responseSuccess []

def readBlob : IpmiBlobHandler H m := fun mgr data => do
  if data.length < sizeof BmcBlobReadTx then return responseReqDataLenInvalid
  else
    let request ← fetch BmcBlobReadTx data
    let result ← mgr (.read request.sessionId request.offset request.requestedSize)
    let output := BmcBlobReadRx 0
    return responseSuccess (if !result.isEmpty then output ++ result else output)

def writeBlob : IpmiBlobHandler H m := fun mgr data => do
  let bytes ← subspan data (sizeof BmcBlobWriteTx)
  let request ← fetch BmcBlobWriteTx data
  if !(← mgr (.write request.sessionId request.offset bytes)) then return responseUnspecifiedError
  else return responseSuccess []

def writeMeta : IpmiBlobHandler H m := fun mgr data => do
  if data.length < sizeof BmcBlobWriteMetaTx then return responseReqDataLenInvalid
  else
    let request ← fetch BmcBlobWriteMetaTx data
    let bytes ← subspan data (sizeof BmcBlobWriteMetaTx)
    if !(← mgr (.writeMeta request.sessionId request.offset bytes)) then
      return responseUnspecifiedError
    else return responseSuccess []

end Commands

end PhosphorBlobs
