import PhosphorBlobs.Process

/-! The blob transfer protocol: what a host can ask for, how a request is laid out in bytes,
and how a reply is. Stated without the decoders, which are compared with it afterwards. -/
namespace PhosphorBlobs

inductive Request where
  | getCount
  | enumerate (blobIdx : UInt32)
  | open (flags : UInt16) (path : Path)
  | read (session : SessionId) (offset requestedSize : UInt32)
  | write (session : SessionId) (offset : UInt32) (data : List UInt8)
  | commit (session : SessionId) (data : List UInt8)
  | close (session : SessionId)
  | delete (path : Path)
  | stat (path : Path)
  | sessionStat (session : SessionId)
  | writeMeta (session : SessionId) (offset : UInt32) (data : List UInt8)
  deriving DecidableEq

def Request.call (H : Type) : Request → ManagerCall H
  | .getCount => .buildBlobList
  | .enumerate blobIdx => .getBlobId blobIdx
  | .open flags path => .open flags path true
  | .read session offset requestedSize => .read session offset requestedSize
  | .write session offset data => .write session offset data
  | .commit session data => .commit session data
  | .close session => .close session
  | .delete path => .deleteBlob path
  | .stat path => .stat path
  | .sessionStat session => .sessionStat session
  | .writeMeta session offset data => .writeMeta session offset data

theorem Request.call_injective {H : Type} {request other : Request}
    (same : request.call H = other.call H) : request = other := by
  cases request <;> cases other <;> cases same <;> rfl

/-- The bytes that follow the CRC in the request of a command. -/
inductive Grammar : BlobOEMCommands → List UInt8 → Request → Prop where
  | getCount {payload : List UInt8} (data : payload ≠ []) :
      Grammar .bmcBlobGetCount payload .getCount
  | enumerate (blobIdx : UInt32) (extra : List UInt8) :
      Grammar .bmcBlobEnumerate (le32 blobIdx ++ extra) (.enumerate blobIdx)
  | open (flags : UInt16) {path : Path} (named : path ≠ []) :
      Grammar .bmcBlobOpen (le16 flags ++ (path ++ [0])) (.open flags path)
  | read (session : SessionId) (offset requestedSize : UInt32) (extra : List UInt8) :
      Grammar .bmcBlobRead (le16 session ++ (le32 offset ++ (le32 requestedSize ++ extra)))
        (.read session offset requestedSize)
  | write (session : SessionId) (offset : UInt32) {data : List UInt8} (some : data ≠ []) :
      Grammar .bmcBlobWrite (le16 session ++ (le32 offset ++ data)) (.write session offset data)
  | commit (session : SessionId) (len : UInt8) {data : List UInt8} (exact : data.length = len.toNat)
      (extra : List UInt8) :
      Grammar .bmcBlobCommit (le16 session ++ (len :: (data ++ extra))) (.commit session data)
  | close (session : SessionId) (extra : List UInt8) :
      Grammar .bmcBlobClose (le16 session ++ extra) (.close session)
  | delete {path : Path} (named : path ≠ []) :
      Grammar .bmcBlobDelete (path ++ [0]) (.delete path)
  | stat {path : Path} (named : path ≠ []) :
      Grammar .bmcBlobStat (path ++ [0]) (.stat path)
  | sessionStat (session : SessionId) (extra : List UInt8) :
      Grammar .bmcBlobSessionStat (le16 session ++ extra) (.sessionStat session)
  | writeMeta (session : SessionId) (offset : UInt32) {data : List UInt8} (some : data ≠ []) :
      Grammar .bmcBlobWriteMeta (le16 session ++ (le32 offset ++ data))
        (.writeMeta session offset data)

def withCrc (generateCrc : List UInt8 → UInt16) (payload : List UInt8) : List UInt8 :=
  le16 (generateCrc payload) ++ payload

def WellFormed (generateCrc : List UInt8 → UInt16) (command : BlobOEMCommands) (body : List UInt8)
    (request : Request) : Prop :=
  ∃ payload, body = withCrc generateCrc payload ∧ Grammar command payload request

/-- The bodies on which the code calls the manager. A count may also come without a CRC. -/
inductive Accepts (generateCrc : List UInt8 → UInt16) (cmd : UInt8) (body : List UInt8) :
    Request → Prop where
  | checked {command : BlobOEMCommands} {request : Request}
      (known : BlobOEMCommands.ofByte cmd = some command)
      (formed : WellFormed generateCrc command body request) :
      Accepts generateCrc cmd body request
  | bare (count : BlobOEMCommands.ofByte cmd = some .bmcBlobGetCount) (short : body.length ≤ 1) :
      Accepts generateCrc cmd body .getCount

/-- What a request comes to: a failure, a plain success, or bytes for the host. -/
inductive Reply where
  | refused (cc : Cc) (failed : cc ≠ .success)
  | done
  | data (bytes : List UInt8)

def Reply.outcome (succeeded : Bool) : Reply :=
  if succeeded then .done else .refused .unspecifiedError (by decide)

def statBytes (info : BlobMeta) : List UInt8 :=
  le16 info.blobState ++ (le32 info.size ++ (UInt8.ofNat info.metadata.length :: info.metadata))

def Reply.ofStat : Option BlobMeta → Reply
  | none => .refused .unspecifiedError (by decide)
  | some info => .data (statBytes info)

def Request.reply {H : Type} : (request : Request) → (request.call H).Answer → Reply
  | .getCount, count => .data (le32 count)
  | .enumerate _, (blobId : Path) =>
    if blobId = [] then .refused .invalidFieldRequest (by decide) else .data (blobId ++ [0])
  | .open .., .refused _ => .refused .unspecifiedError (by decide)
  | .open .., .opened session => .data (le16 session)
  | .read .., bytes => .data bytes
  | .stat _, info | .sessionStat _, info => .ofStat info
  | .write .., succeeded | .commit .., succeeded | .close _, succeeded | .delete _, succeeded
  | .writeMeta .., succeeded => .outcome succeeded

/-- The reply as a command lays it out, with room for the CRC. -/
def Reply.raw : Reply → Resp
  | .refused cc _ => ⟨cc, none⟩
  | .done => responseSuccess []
  | .data bytes => responseSuccess (le16 0 ++ bytes)

def Reply.sent (generateCrc : List UInt8 → UInt16) (maxSize : Nat) : Reply → Resp
  | .refused cc _ => ⟨cc, none⟩
  | .done => responseSuccess []
  | .data bytes =>
    if bytes.length + 2 ≤ maxSize then responseSuccess (withCrc generateCrc bytes)
    else responseResponseError

section Layout

@[simp] theorem length_le16 (n : UInt16) : (le16 n).length = 2 := Bytes.length_encode 2 _

@[simp] theorem length_le32 (n : UInt32) : (le32 n).length = 4 := Bytes.length_encode 4 _

@[simp] theorem u16At_le16 (n : UInt16) (rest : List UInt8) : u16At 0 (le16 n ++ rest) = n := by
  have bound : n.toNat < 2 ^ 16 := n.toNat_lt
  rw [u16At, le16, Bytes.field_encode, Nat.mod_eq_of_lt (by omega), UInt16.ofNat_toNat]

@[simp] theorem u32At_le32 (n : UInt32) (rest : List UInt8) : u32At 0 (le32 n ++ rest) = n := by
  have bound : n.toNat < 2 ^ 32 := n.toNat_lt
  rw [u32At, le32, Bytes.field_encode, Nat.mod_eq_of_lt (by omega), UInt32.ofNat_toNat]

@[simp] theorem u8At_cons (n : UInt8) (rest : List UInt8) : u8At 0 (n :: rest) = n := by
  simp [u8At, Bytes.field, Bytes.decode]

@[simp] theorem u16At_past (n : UInt16) (off : Nat) (rest : List UInt8) :
    u16At (off + 2) (le16 n ++ rest) = u16At off rest :=
  congrArg UInt16.ofNat (Bytes.field_skip 2 off (length_le16 n) rest)

@[simp] theorem u32At_past (n : UInt16) (off : Nat) (rest : List UInt8) :
    u32At (off + 2) (le16 n ++ rest) = u32At off rest :=
  congrArg UInt32.ofNat (Bytes.field_skip 4 off (length_le16 n) rest)

@[simp] theorem u8At_past (n : UInt16) (off : Nat) (rest : List UInt8) :
    u8At (off + 2) (le16 n ++ rest) = u8At off rest :=
  congrArg UInt8.ofNat (Bytes.field_skip 1 off (length_le16 n) rest)

@[simp] theorem u32At_past32 (n : UInt32) (off : Nat) (rest : List UInt8) :
    u32At (off + 4) (le32 n ++ rest) = u32At off rest :=
  congrArg UInt32.ofNat (Bytes.field_skip 4 off (length_le32 n) rest)

theorem split16 {off : Nat} {data : List UInt8} (room : off + 2 ≤ data.length) :
    data.drop off = le16 (u16At off data) ++ data.drop (off + 2) := by
  have small : Bytes.field 2 off data < 2 ^ 16 := Bytes.field_lt 2 off data
  rw [le16, u16At, UInt16.toNat_ofNat_of_lt' small, ← Bytes.encode_field 2 room]

theorem split32 {off : Nat} {data : List UInt8} (room : off + 4 ≤ data.length) :
    data.drop off = le32 (u32At off data) ++ data.drop (off + 4) := by
  have small : Bytes.field 4 off data < 2 ^ 32 := Bytes.field_lt 4 off data
  rw [le32, u32At, UInt32.toNat_ofNat_of_lt' small, ← Bytes.encode_field 4 room]

end Layout

end PhosphorBlobs
