import PhosphorBlobs.Wire.Requests

/-! What the host receives. Every reply is an error code alone, a bare success or bytes
behind their CRC, and the bytes are those of the manager's answer. -/
namespace PhosphorBlobs

variable {H : Type} {generateCrc : List UInt8 → UInt16} {maxSize : Nat}

/-- The host receives these bytes if they fit, and an error code otherwise. -/
def Carries (generateCrc : List UInt8 → UInt16) (maxSize : Nat) (result : Resp)
    (bytes : List UInt8) : Prop :=
  (bytes.length + 2 ≤ maxSize → result = responseSuccess (withCrc generateCrc bytes)) ∧
  (maxSize < bytes.length + 2 → result = responseResponseError)

theorem sent_carries (bytes : List UInt8) :
    Carries generateCrc maxSize ((Reply.data bytes).sent generateCrc maxSize) bytes :=
  ⟨fun fits => if_pos fits, fun exceeds => if_neg (by omega)⟩

theorem Carries.payload {result : Resp} {bytes : List UInt8}
    (carries : Carries generateCrc maxSize result bytes) (success : result.cc = .success) :
    result.payload = some (withCrc generateCrc bytes) := by
  rcases Nat.lt_or_ge maxSize (bytes.length + 2) with exceeds | fits
  · rw [carries.2 exceeds] at success
    cases success
  · rw [carries.1 fits]
    rfl

inductive Formed (generateCrc : List UInt8 → UInt16) (maxSize : Nat) (cmd : UInt8) : Resp → Prop where
  | error {cc : Cc} (failed : cc ≠ .success) : Formed generateCrc maxSize cmd ⟨cc, none⟩
  | bare {command : BlobOEMCommands} (known : BlobOEMCommands.ofByte cmd = some command)
      (plain : command ∈ [BlobOEMCommands.bmcBlobWrite, .bmcBlobWriteMeta, .bmcBlobCommit,
        .bmcBlobClose, .bmcBlobDelete]) : Formed generateCrc maxSize cmd (responseSuccess [])
  | data {r : List UInt8} (least : 2 ≤ r.length) (most : r.length ≤ maxSize)
      (crc : u16At 0 r = generateCrc (r.drop 2)) : Formed generateCrc maxSize cmd (responseSuccess r)

theorem Formed.sent_data {cmd : UInt8} (bytes : List UInt8) :
    Formed generateCrc maxSize cmd ((Reply.data bytes).sent generateCrc maxSize) := by
  rcases Nat.lt_or_ge maxSize (bytes.length + 2) with exceeds | fits
  · rw [(sent_carries bytes).2 exceeds]
    exact .error (by decide)
  · rw [(sent_carries bytes).1 fits]
    have size : (withCrc generateCrc bytes).length = bytes.length + 2 := by
      simp only [withCrc, List.length_append, length_le16]
      omega
    refine .data (by omega) (by omega) ?_
    rw [withCrc, u16At_le16, List.drop_left' (length_le16 _)]

theorem Formed.sent_outcome {cmd : UInt8} {command : BlobOEMCommands}
    (known : BlobOEMCommands.ofByte cmd = some command)
    (plain : command ∈ [BlobOEMCommands.bmcBlobWrite, .bmcBlobWriteMeta, .bmcBlobCommit,
      .bmcBlobClose, .bmcBlobDelete]) (succeeded : Bool) :
    Formed generateCrc maxSize cmd ((Reply.outcome succeeded).sent generateCrc maxSize) := by
  cases succeeded with
  | true => exact .bare known plain
  | false => exact .error (by decide)

theorem Formed.sent_stat {cmd : UInt8} (info : Option BlobMeta) :
    Formed generateCrc maxSize cmd ((Reply.ofStat info).sent generateCrc maxSize) := by
  cases info with
  | none => exact .error (by decide)
  | some info => exact .sent_data (statBytes info)

theorem Accepts.formed {cmd : UInt8} {body : List UInt8} {request : Request}
    (accepts : Accepts generateCrc cmd body request) (answer : (request.call H).Answer) :
    Formed generateCrc maxSize cmd ((request.reply answer).sent generateCrc maxSize) := by
  cases accepts with
  | bare count short => exact .sent_data _
  | checked known formed =>
    obtain ⟨payload, _, parses⟩ := formed
    cases parses with
    | getCount _ | read _ _ _ _ => exact .sent_data _
    | enumerate blobIdx extra =>
      cases (answer : Path) with
      | nil => exact .error (by decide)
      | cons b rest => exact .sent_data _
    | «open» flags named =>
      cases (answer : BlobManager.Opened) with
      | opened session => exact .sent_data _
      | refused stored => exact .error (by decide)
    | stat named => exact .sent_stat answer
    | sessionStat session extra => exact .sent_stat answer
    | write _ _ _ | commit _ _ _ _ | close _ _ | delete _ | writeMeta _ _ _ =>
      exact .sent_outcome known (by decide) answer

def ManagerCall.command? : ManagerCall H → Option BlobOEMCommands
  | .registerHandler _ => none
  | .buildBlobList => some .bmcBlobGetCount
  | .getBlobId _ => some .bmcBlobEnumerate
  | .open .. => some .bmcBlobOpen
  | .stat _ => some .bmcBlobStat
  | .sessionStat _ => some .bmcBlobSessionStat
  | .commit .. => some .bmcBlobCommit
  | .close _ => some .bmcBlobClose
  | .read .. => some .bmcBlobRead
  | .write .. => some .bmcBlobWrite
  | .deleteBlob _ => some .bmcBlobDelete
  | .writeMeta .. => some .bmcBlobWriteMeta

/-- The bytes the host is to receive after a manager call that succeeded with data. -/
def ManagerEvent.encoding : ManagerEvent H → Option (List UInt8)
  | ⟨.buildBlobList, count⟩ => some (le32 count)
  | ⟨.getBlobId _, blobId⟩ => if blobId.isEmpty then none else some (blobId ++ [0])
  | ⟨.open .., .opened session⟩ => some (le16 session)
  | ⟨.read .., bytes⟩ => some bytes
  | ⟨.stat _, some info⟩ | ⟨.sessionStat _, some info⟩ => some (statBytes info)
  | _ => none

theorem Accepts.command {cmd : UInt8} {body : List UInt8} {request : Request}
    (accepts : Accepts generateCrc cmd body request) :
    (request.call H).command? = BlobOEMCommands.ofByte cmd := by
  cases accepts with
  | bare count short => exact count.symm
  | checked known formed =>
    obtain ⟨payload, _, parses⟩ := formed
    rw [known]
    cases parses <;> rfl

theorem reply_data {request : Request} {answer : (request.call H).Answer} {bytes : List UInt8} :
    request.reply answer = .data bytes ↔
      (⟨request.call H, answer⟩ : ManagerEvent H).encoding = some bytes := by
  have data : ∀ sent : List UInt8, Reply.data sent = .data bytes ↔ some sent = some bytes := by
    intro sent
    rw [Reply.data.injEq, Option.some.injEq]
  have refused : ∀ cc failed, Reply.refused cc failed = .data bytes ↔ none = some bytes := by
    intro cc failed
    simp
  have outcome : ∀ succeeded : Bool, Reply.outcome succeeded = .data bytes ↔ none = some bytes := by
    intro succeeded
    cases succeeded <;> simp [Reply.outcome]
  cases request with
  | getCount | read _ _ _ => exact data _
  | enumerate blobIdx =>
    cases (answer : Path) with
    | nil => exact refused .invalidFieldRequest (by decide)
    | cons b rest => exact data _
  | «open» flags path =>
    cases (answer : BlobManager.Opened) with
    | opened session => exact data _
    | refused stored => exact refused .unspecifiedError (by decide)
  | stat _ | sessionStat _ =>
    cases (answer : Option BlobMeta) with
    | none => exact refused .unspecifiedError (by decide)
    | some info => exact data (statBytes info)
  | write _ _ _ | commit _ _ | close _ | delete _ | writeMeta _ _ _ => exact outcome answer

/-- Every reply has one of the three forms. The manager is called once for every accepted
request, and the reply carries the encoding of its answer whenever that fits, and nothing else. -/
theorem replies_well_formed (generateCrc : List UInt8 → UInt16) (cmd : UInt8) (body : List UInt8)
    (maxSize : Nat) (M : ManagerAnswers H) (seen : List (ManagerEvent H)) :
    let done := attended generateCrc M cmd body maxSize seen
    ∃ result, done.1 = .ok result ∧ Formed generateCrc maxSize cmd result ∧
      (∀ request, Accepts generateCrc cmd body request →
        done.2 = seen ++ [⟨request.call H, M (request.call H) seen⟩]) ∧
      (∀ event bytes, done.2 = seen ++ [event] → event.encoding = some bytes →
        Carries generateCrc maxSize result bytes) ∧
      (result.cc = .success → ∃ event, done.2 = seen ++ [event] ∧
        event.call.command? = BlobOEMCommands.ofByte cmd ∧
        ∀ r, result.payload = some r → r ≠ [] → ∃ bytes, event.encoding = some bytes ∧
          r = withCrc generateCrc bytes) := by
  intro done
  have called : ∀ request, Accepts generateCrc cmd body request →
      done.2 = seen ++ [⟨request.call H, M (request.call H) seen⟩] :=
    fun request accepts => congrArg Prod.snd (attended_accepts accepts M maxSize seen)
  rcases attended_cases generateCrc M cmd body maxSize seen with
    ⟨request, accepts, run⟩ | ⟨_, cc, failed, run⟩
  · have calls : done.2 = seen ++ [⟨request.call H, M (request.call H) seen⟩] := congrArg Prod.snd run
    refine ⟨_, congrArg Prod.fst run, accepts.formed _, called, ?_, ?_⟩
    · intro event bytes made encodes
      have same := List.append_cancel_left (calls.symm.trans made)
      cases same
      rw [reply_data.mpr encodes]
      exact sent_carries bytes
    · intro success
      refine ⟨_, calls, accepts.command, ?_⟩
      intro r payload some
      cases reply : request.reply (M (request.call H) seen) with
      | refused cc failed =>
        rw [reply] at payload
        cases payload
      | done =>
        rw [reply] at payload
        cases payload
        exact absurd rfl some
      | data bytes =>
        rw [reply] at payload success
        refine ⟨bytes, reply_data.mp reply, ?_⟩
        have carried := (sent_carries bytes).payload success
        exact Option.some.inj (payload.symm.trans carried)
  · have calls : done.2 = seen := congrArg Prod.snd run
    refine ⟨_, congrArg Prod.fst run, .error failed, called, ?_, fun success => absurd success failed⟩
    intro event bytes made _
    have more := congrArg List.length (calls.symm.trans made)
    simp at more

end PhosphorBlobs
