import PhosphorBlobs.Ipmi

/-! From a request to its reply, from process.hpp and process.cpp. -/
namespace PhosphorBlobs

open Packed (sizeof)

variable {H : Type} {m : Type → Type} [Monad m]

/-- The least request with a payload: a CRC and one byte of data. -/
structure BmcRx where
  crc : UInt16
  data : UInt8

instance : Packed BmcRx := ⟨3, fun data => ⟨u16At 0 data, u8At 2 data⟩⟩

/-- A bare uint16_t in a buffer. -/
instance : Packed UInt16 := ⟨2, u16At 0⟩

def handlers : BlobOEMCommands → IpmiBlobHandler H m
  | .bmcBlobGetCount => getBlobCount
  | .bmcBlobEnumerate => enumerateBlob
  | .bmcBlobOpen => openBlob
  | .bmcBlobRead => readBlob
  | .bmcBlobWrite => writeBlob
  | .bmcBlobCommit => commitBlob
  | .bmcBlobClose => closeBlob
  | .bmcBlobDelete => deleteBlob
  | .bmcBlobStat => statBlob
  | .bmcBlobSessionStat => sessionStatBlob
  | .bmcBlobWriteMeta => writeMeta

/-- The handlers that validateBlobCommand returns for a bad request. -/
def errorHandler (response : Resp) : IpmiBlobHandler H m := fun _ _ => return response

def validateBlobCommand (generateCrc : List UInt8 → UInt16) (cmd : UInt8) (data : List UInt8) :
    Except Fault (IpmiBlobHandler H m) := do
  let requestLength := data.length
  let command := BlobOEMCommands.ofByte cmd
  let found : IpmiBlobHandler H m :=
    match command with
    | none => errorHandler responseInvalidFieldRequest
    | some command => handlers command
  if !validateRequestLength command requestLength then
    return errorHandler responseReqDataLenInvalid
  -- sizeof(cmd), one, although the command byte is not part of data
  else if requestLength > 1 then
    if requestLength < sizeof BmcRx then return errorHandler responseReqDataLenInvalid
    else if data.length < sizeof UInt16 then return errorHandler responseReqDataLenInvalid
    else
      let crc ← fetch UInt16 data
      let rest ← subspan data (sizeof UInt16)
      if crc ≠ generateCrc rest then return errorHandler responseUnspecifiedError
      else return found
  else return found

/-- Copying bytes over the front of a buffer. -/
def store (bytes buffer : List UInt8) : Except Fault (List UInt8) :=
  if bytes.length ≤ buffer.length then .ok (bytes ++ buffer.drop bytes.length)
  else .error .outOfBounds

def deref (payload : Option (List UInt8)) : Except Fault (List UInt8) :=
  match payload with
  | none => .error .emptyOptional
  | some response => .ok response

def processBlobCommand (generateCrc : List UInt8 → UInt16) (cmd : IpmiBlobHandler H m)
    (mgr : ManagerInterface H m) (data : List UInt8) (maxSize : Nat) : ExceptT Fault m Resp := do
  let result ← cmd mgr data
  if result.cc ≠ .success then return result
  else
    let response ← deref result.payload
    let replyLength := response.length
    if replyLength = 0 then return result
    else if replyLength < sizeof UInt16 then return responseUnspecifiedError
    else if replyLength > maxSize then return responseResponseError
    else
      let responseView ← subspan response (sizeof UInt16)
      let crcValue := generateCrc responseView
      if response.length < sizeof UInt16 then return responseReqDataLenInvalid
      else
        let response ← store (le16 crcValue) response
        return { result with payload := some response }

def handleBlobCommand (generateCrc : List UInt8 → UInt16) (cmd : UInt8)
    (mgr : ManagerInterface H m) (data : List UInt8) (maxSize : Nat) : ExceptT Fault m Resp := do
  let handler ← validateBlobCommand generateCrc cmd data
  processBlobCommand generateCrc handler mgr data maxSize

end PhosphorBlobs
