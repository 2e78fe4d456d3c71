import PhosphorBlobs.Wire.Stats

/-! The other end of the wire. A host lays out its requests and reads the replies back; both
are stated here from the protocol, as the repository holds the side of the daemon only. -/
namespace PhosphorBlobs

variable {H : Type}

namespace Request

def command : Request → BlobOEMCommands
  | .getCount => .bmcBlobGetCount
  | .enumerate _ => .bmcBlobEnumerate
  | .open .. => .bmcBlobOpen
  | .read .. => .bmcBlobRead
  | .write .. => .bmcBlobWrite
  | .commit .. => .bmcBlobCommit
  | .close _ => .bmcBlobClose
  | .delete _ => .bmcBlobDelete
  | .stat _ => .bmcBlobStat
  | .sessionStat _ => .bmcBlobSessionStat
  | .writeMeta .. => .bmcBlobWriteMeta

/-- The shortest payload that asks for it. A count needs none. -/
def payload : Request → List UInt8
  | .getCount => []
  | .enumerate blobIdx => le32 blobIdx
  | .open flags path => le16 flags ++ (path ++ [0])
  | .read session offset requestedSize => le16 session ++ (le32 offset ++ le32 requestedSize)
  | .write session offset data | .writeMeta session offset data => le16 session ++ (le32 offset ++ data)
  | .commit session data => le16 session ++ (UInt8.ofNat data.length :: data)
  | .close session | .sessionStat session => le16 session
  | .delete path | .stat path => path ++ [0]

def body (generateCrc : List UInt8 → UInt16) : Request → List UInt8
  | .getCount => []
  | request => withCrc generateCrc request.payload

def Sendable : Request → Prop
  | .open _ path | .delete path | .stat path => path ≠ []
  | .write _ _ data | .writeMeta _ _ data => data ≠ []
  | .commit _ data => data.length < 256
  | _ => True

instance decidableSendable : (request : Request) → Decidable request.Sendable
  | .open _ path | .delete path | .stat path => inferInstanceAs (Decidable (path ≠ []))
  | .write _ _ data | .writeMeta _ _ data => inferInstanceAs (Decidable (data ≠ []))
  | .commit _ data => inferInstanceAs (Decidable (data.length < 256))
  | .getCount | .enumerate _ | .read .. | .close _ | .sessionStat _ => isTrue trivial

end Request

section Sending

variable {generateCrc : List UInt8 → UInt16} {cmd : UInt8} {body : List UInt8} {request : Request}

theorem Grammar.sent (sendable : request.Sendable) (asks : request ≠ .getCount) :
    Grammar request.command request.payload request := by
  cases request with
  | getCount => exact absurd rfl asks
  | enumerate blobIdx => simpa [Request.command, Request.payload] using Grammar.enumerate blobIdx []
  | «open» flags path => exact .open flags sendable
  | read session offset requestedSize => simpa [Request.command, Request.payload] using Grammar.read session offset requestedSize []
  | write session offset data => exact .write session offset sendable
  | commit session data =>
    have exact : data.length = (UInt8.ofNat data.length).toNat := by
      rw [UInt8.toNat_ofNat']
      exact (Nat.mod_eq_of_lt sendable).symm
    simpa [Request.command, Request.payload] using Grammar.commit session _ exact []
  | close session => simpa [Request.command, Request.payload] using Grammar.close session []
  | delete path => exact .delete sendable
  | stat path => exact .stat sendable
  | sessionStat session => simpa [Request.command, Request.payload] using Grammar.sessionStat session []
  | writeMeta session offset data => exact .writeMeta session offset sendable

theorem Accepts.sent (generateCrc : List UInt8 → UInt16) (sendable : request.Sendable) :
    Accepts generateCrc request.command.code (request.body generateCrc) request := by
  by_cases count : request = .getCount
  · subst count
    exact .bare rfl (Nat.zero_le 1)
  · have same : request.body generateCrc = withCrc generateCrc request.payload := by
      cases request <;> first | rfl | exact absurd rfl count
    rw [same]
    exact .checked (ofByte_code.mpr rfl) ⟨_, rfl, .sent sendable count⟩

theorem Accepts.sendable (accepts : Accepts generateCrc cmd body request) : request.Sendable := by
  cases accepts with
  | bare count short => exact trivial
  | checked known formed =>
    obtain ⟨payload, _, parses⟩ := formed
    cases parses with
    | «open» flags named | delete named | stat named => exact named
    | write session offset some | writeMeta session offset some => exact some
    | commit session len exact extra =>
      have small := len.toNat_lt
      unfold Request.Sendable
      omega
    | _ => exact trivial

end Sending

inductive Outcome where
  | failed
  | done
  | count (blobs : UInt32)
  | blobId (path : Path)
  | opened (session : SessionId)
  | bytes (data : List UInt8)
  | info (stat : BlobMeta)
  deriving DecidableEq

def Outcome.ofBool (succeeded : Bool) : Outcome := if succeeded then .done else .failed

def Outcome.ofStat : Option BlobMeta → Outcome
  | none => .failed
  | some stat => .info stat

/-- The answer of the manager, as far as there is a reply for it. -/
def Request.outcome : (request : Request) → (request.call H).Answer → Outcome
  | .getCount, blobs => .count blobs
  | .enumerate _, (blobId : Path) => if blobId = [] then .failed else .blobId blobId
  | .open .., .refused _ => .failed
  | .open .., .opened session => .opened session
  | .read .., data => .bytes data
  | .stat _, info | .sessionStat _, info => .ofStat info
  | .write .., succeeded | .commit .., succeeded | .close _, succeeded | .delete _, succeeded
  | .writeMeta .., succeeded => .ofBool succeeded

/-- The payload of a reply, its CRC in front. -/
def BlobOEMCommands.parse (payload : List UInt8) : BlobOEMCommands → Option Outcome
  | .bmcBlobGetCount => if payload.length = 6 then some (.count (u32At 2 payload)) else none
  | .bmcBlobEnumerate => some (.blobId (stringFromBuffer (payload.drop 2)))
  | .bmcBlobOpen => if payload.length = 4 then some (.opened (u16At 2 payload)) else none
  | .bmcBlobRead => some (.bytes (payload.drop 2))
  | .bmcBlobStat | .bmcBlobSessionStat => (decodeStat payload).map .info
  | .bmcBlobWrite | .bmcBlobCommit | .bmcBlobClose | .bmcBlobDelete | .bmcBlobWriteMeta => none

def decode (generateCrc : List UInt8 → UInt16) (command : BlobOEMCommands) :
    Except Fault Resp → Option Outcome
  | .error _ | .ok ⟨.success, none⟩ => none
  | .ok ⟨.success, some payload⟩ =>
    if payload.isEmpty then some .done
    else if payload.length < 2 ∨ u16At 0 payload ≠ generateCrc (payload.drop 2) then none
    else command.parse payload
  | .ok _ => some .failed

def Reply.fits (maxSize : Nat) : Reply → Bool
  | .data bytes => decide (bytes.length + 2 ≤ maxSize)
  | _ => true

section Receiving

variable {generateCrc : List UInt8 → UInt16} {maxSize : Nat} {command : BlobOEMCommands}

theorem decode_refused {cc : Cc} (failed : cc ≠ .success) (payload : Option (List UInt8)) :
    decode generateCrc command (.ok ⟨cc, payload⟩) = some .failed := by
  cases cc with
  | success => exact absurd rfl failed
  | _ => rfl

theorem decode_outcome (succeeded : Bool) :
    decode generateCrc command (.ok ((Reply.outcome succeeded).sent generateCrc maxSize)) =
      some (.ofBool succeeded) := by
  cases succeeded with
  | true => rfl
  | false => exact decode_refused (by decide) none

theorem decode_data (bytes : List UInt8) :
    decode generateCrc command (.ok ((Reply.data bytes).sent generateCrc maxSize)) =
      if (Reply.data bytes).fits maxSize then command.parse (withCrc generateCrc bytes) else some .failed := by
  by_cases fits : bytes.length + 2 ≤ maxSize
  · have long : 2 ≤ (withCrc generateCrc bytes).length := by
      simp only [withCrc, List.length_append, length_le16]
      omega
    have some : (withCrc generateCrc bytes).isEmpty = false := by
      cases carried : withCrc generateCrc bytes with
      | nil => rw [carried] at long; cases long
      | cons b rest => rfl
    have checked : ¬ ((withCrc generateCrc bytes).length < 2 ∨
        u16At 0 (withCrc generateCrc bytes) ≠ generateCrc ((withCrc generateCrc bytes).drop 2)) := by
      rintro (short | differs)
      · omega
      · rw [withCrc, u16At_le16, List.drop_left' (length_le16 _)] at differs
        exact differs rfl
    rw [(sent_carries bytes).1 fits, Reply.fits, if_pos (decide_eq_true fits)]
    simp only [decode, responseSuccess, some, Bool.false_eq_true, if_false, if_neg checked]
  · rw [(sent_carries bytes).2 (by omega), Reply.fits, if_neg (by simpa using fits)]
    rfl

section Parsing

variable (crc : UInt16)

theorem parse_count (blobs : UInt32) :
    BlobOEMCommands.bmcBlobGetCount.parse (le16 crc ++ le32 blobs) = some (.count blobs) := by
  have field := u32At_le32 blobs []
  rw [List.append_nil] at field
  have size : (le16 crc ++ le32 blobs).length = 6 := by simp
  simp only [BlobOEMCommands.parse, size, if_true, u32At_past _ 0, field]

theorem parse_blobId (path : Path) :
    BlobOEMCommands.bmcBlobEnumerate.parse (le16 crc ++ (path ++ [0])) = some (.blobId path) := by
  simp only [BlobOEMCommands.parse, List.drop_left' (length_le16 crc), stringFromBuffer_terminated]

theorem parse_session (session : SessionId) :
    BlobOEMCommands.bmcBlobOpen.parse (le16 crc ++ le16 session) = some (.opened session) := by
  have field := u16At_le16 session []
  rw [List.append_nil] at field
  have size : (le16 crc ++ le16 session).length = 4 := by simp
  simp only [BlobOEMCommands.parse, size, if_true, u16At_past _ 0, field]

theorem parse_bytes (data : List UInt8) :
    BlobOEMCommands.bmcBlobRead.parse (le16 crc ++ data) = some (.bytes data) := by
  simp only [BlobOEMCommands.parse, List.drop_left' (length_le16 crc)]

theorem parse_stat {stat : BlobMeta} (short : stat.metadata.length < 256) :
    decodeStat (le16 crc ++ statBytes stat) = some stat := by
  rw [decodeStat_encoded, Nat.mod_eq_of_lt short, List.take_length]

end Parsing

theorem decode_stat (statted : command = .bmcBlobStat ∨ command = .bmcBlobSessionStat)
    {stat : Option BlobMeta} (short : ∀ info ∈ stat, info.metadata.length < 256) :
    decode generateCrc command (.ok ((Reply.ofStat stat).sent generateCrc maxSize)) =
      some (if (Reply.ofStat stat).fits maxSize then .ofStat stat else .failed) := by
  cases stat with
  | none => exact decode_refused (by decide) none
  | some info =>
    have parsed : command.parse (withCrc generateCrc (statBytes info)) = some (.info info) := by
      have read := parse_stat (generateCrc (statBytes info)) (short info rfl)
      rcases statted with rfl | rfl <;> exact congrArg (Option.map Outcome.info) read
    rw [Reply.ofStat, decode_data, parsed]
    split <;> rfl

/-- A reply says what the manager answered, if it fits the channel; otherwise it says that the
request has failed. -/
theorem decode_sent (request : Request) (answer : (request.call H).Answer)
    (short : ∀ info, request.outcome answer = .info info → info.metadata.length < 256) :
    decode generateCrc request.command (.ok ((request.reply answer).sent generateCrc maxSize)) =
      some (if (request.reply answer).fits maxSize then request.outcome answer else .failed) := by
  have carried : ∀ {bytes : List UInt8} {outcome : Outcome},
      request.command.parse (withCrc generateCrc bytes) = some outcome →
      decode generateCrc request.command (.ok ((Reply.data bytes).sent generateCrc maxSize)) =
        some (if (Reply.data bytes).fits maxSize then outcome else .failed) := by
    intro bytes outcome parsed
    rw [decode_data, parsed]
    split <;> rfl
  cases request with
  | getCount => exact carried (parse_count _ answer)
  | enumerate blobIdx =>
    cases (answer : Path) with
    | nil => rfl
    | cons b rest => exact carried (parse_blobId _ (b :: rest))
  | «open» flags path =>
    cases (answer : BlobManager.Opened) with
    | refused stored => rfl
    | opened session => exact carried (parse_session _ session)
  | read session offset requestedSize => exact carried (parse_bytes _ answer)
  | stat _ =>
    refine decode_stat (.inl rfl) fun info told => short info ?_
    cases told
    rfl
  | sessionStat _ =>
    refine decode_stat (.inr rfl) fun info told => short info ?_
    cases told
    rfl
  | write _ _ _ | commit _ _ | close _ | delete _ | writeMeta _ _ _ =>
    refine (decode_outcome answer).trans ?_
    cases (answer : Bool) <;> rfl

end Receiving

end PhosphorBlobs
