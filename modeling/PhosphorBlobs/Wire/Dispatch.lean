import PhosphorBlobs.Wire.Commands

/-! A whole request refines the protocol: the accepted bodies lead to the one manager call of
the request they stand for and to the reply for its answer, all others to a refusal. -/
namespace PhosphorBlobs

open Packed (sizeof)

variable {H : Type} {m : Type → Type} [Monad m] [LawfulMonad m]

theorem process_result (generateCrc : List UInt8 → UInt16) (cmd : IpmiBlobHandler H m)
    (mgr : ManagerInterface H m) (data : List UInt8) (maxSize : Nat) :
    processBlobCommand generateCrc cmd mgr data maxSize =
      cmd mgr data >>= fun result =>
        processBlobCommand generateCrc (errorHandler result) mgr data maxSize := by
  simp only [processBlobCommand, errorHandler, pure_bind]

theorem process_raw (generateCrc : List UInt8 → UInt16) (reply : Reply)
    (mgr : ManagerInterface H m) (data : List UInt8) (maxSize : Nat) :
    processBlobCommand generateCrc (errorHandler reply.raw) mgr data maxSize =
      pure (reply.sent generateCrc maxSize) := by
  simp only [processBlobCommand, errorHandler, pure_bind]
  cases reply with
  | refused cc failed => exact if_pos failed
  | done =>
    have response : deref Reply.done.raw.payload = .ok [] := rfl
    rw [if_neg (show ¬ Reply.done.raw.cc ≠ .success from fun differs => differs rfl)]
    simp only [response, lift_ok, pure_bind]
    rfl
  | data bytes =>
    have size : (le16 0 ++ bytes).length = bytes.length + 2 := by simp; omega
    have view : subspan (le16 0 ++ bytes) (sizeof UInt16) = .ok bytes := subspan_append rfl
    have stored : store (le16 (generateCrc bytes)) (le16 0 ++ bytes) =
        .ok (le16 (generateCrc bytes) ++ bytes) := by
      simp [store, le16, Bytes.encode]
    have response : deref (Reply.data bytes).raw.payload = .ok (le16 0 ++ bytes) := rfl
    rw [if_neg (show ¬ (Reply.data bytes).raw.cc ≠ .success from fun differs => differs rfl)]
    have crc : ¬ bytes.length + 2 < sizeof UInt16 := by simp [sizeof]
    simp only [response, lift_ok, pure_bind, size, view, stored]
    rw [if_neg (by omega), if_neg crc, if_neg crc]
    by_cases fits : bytes.length + 2 ≤ maxSize
    · rw [if_neg (by omega), Reply.sent, if_pos fits]
      rfl
    · rw [if_pos (by omega), Reply.sent, if_neg fits]

theorem process_served (generateCrc : List UInt8 → UInt16) {cmd : IpmiBlobHandler H m}
    {request : Request} {mgr : ManagerInterface H m} {data : List UInt8}
    (serves : cmd mgr data = request.served mgr) (maxSize : Nat) :
    processBlobCommand generateCrc cmd mgr data maxSize = (do
      let answer ← mgr (request.call H)
      return (request.reply answer).sent generateCrc maxSize) := by
  rw [process_result, serves]
  simp only [Request.served, bind_assoc, pure_bind, process_raw]

theorem process_refused (generateCrc : List UInt8 → UInt16) {cmd : IpmiBlobHandler H m}
    {mgr : ManagerInterface H m} {data : List UInt8} {cc : Cc} (failed : cc ≠ .success)
    (refuses : cmd mgr data = pure ⟨cc, none⟩) (maxSize : Nat) :
    processBlobCommand generateCrc cmd mgr data maxSize = pure ⟨cc, none⟩ := by
  rw [process_result, refuses, pure_bind]
  exact process_raw generateCrc (.refused cc failed) mgr data maxSize

theorem validated_data {command : BlobOEMCommands} {n : Nat}
    (long : validateRequestLength (some command) n = true) :
    command = .bmcBlobGetCount ∨ 3 ≤ n := by
  cases required : minimumLengths command with
  | none => cases command with
    | bmcBlobGetCount => exact .inl rfl
    | _ => cases required
  | some least =>
    have room := validated required long
    have most : 4 ≤ least := by
      cases command with
      | bmcBlobGetCount => cases required
      | _ => cases required; decide
    exact .inr (by omega)

theorem Grammar.long {command : BlobOEMCommands} {payload : List UInt8} {request : Request}
    (parses : Grammar command payload request) :
    validateRequestLength (some command) (payload.length + 2) = true ∧ 1 ≤ payload.length := by
  cases parses with
  | getCount data => exact ⟨rfl, List.length_pos_of_ne_nil data⟩
  | «open» flags named | delete named | stat named =>
    have letters := List.length_pos_of_ne_nil named
    simp [validateRequestLength, minimumLengths, sizeof, kMinStrLen]
    omega
  | write session offset some | writeMeta session offset some =>
    have bytes := List.length_pos_of_ne_nil some
    simp [validateRequestLength, minimumLengths, sizeof]
    omega
  | enumerate _ _ | read _ _ _ _ | commit _ _ _ _ | close _ _ | sessionStat _ _ =>
    simp [validateRequestLength, minimumLengths, sizeof]
    omega

omit [LawfulMonad m] in
theorem validate_data (generateCrc : List UInt8 → UInt16) (cmd : UInt8) {body : List UInt8}
    (data : 3 ≤ body.length) :
    (validateBlobCommand generateCrc cmd body : Except Fault (IpmiBlobHandler H m)) =
      if !validateRequestLength (BlobOEMCommands.ofByte cmd) body.length then
        .ok (errorHandler responseReqDataLenInvalid)
      else if u16At 0 body ≠ generateCrc (body.drop 2) then
        .ok (errorHandler responseUnspecifiedError)
      else .ok (match BlobOEMCommands.ofByte cmd with
        | none => errorHandler responseInvalidFieldRequest
        | some command => handlers command) := by
  have crc : fetch UInt16 body = .ok (u16At 0 body) := fetch_ok (by simp only [sizeof]; omega)
  have rest : subspan body (sizeof UInt16) = .ok (body.drop 2) :=
    subspan_ok (by simp only [sizeof]; omega)
  have one : body.length > 1 := by omega
  have least : ¬ body.length < sizeof BmcRx := by simp only [sizeof]; omega
  have two : ¬ body.length < sizeof UInt16 := by simp only [sizeof]; omega
  simp only [validateBlobCommand, one, least, two, if_true, if_false, crc, rest]
  rfl

omit [LawfulMonad m] in
/-- A shorter body passes the checks only with one byte at most, and then unchecked. -/
theorem validate_short (generateCrc : List UInt8 → UInt16) (cmd : UInt8) {body : List UInt8}
    (short : ¬ 3 ≤ body.length) :
    (validateBlobCommand generateCrc cmd body : Except Fault (IpmiBlobHandler H m)) =
      if !validateRequestLength (BlobOEMCommands.ofByte cmd) body.length then
        .ok (errorHandler responseReqDataLenInvalid)
      else if body.length > 1 then .ok (errorHandler responseReqDataLenInvalid)
      else .ok (match BlobOEMCommands.ofByte cmd with
        | none => errorHandler responseInvalidFieldRequest
        | some command => handlers command) := by
  have least : body.length < sizeof BmcRx := by simp only [sizeof]; omega
  simp only [validateBlobCommand, least, if_true]
  rfl

theorem handle_validated {generateCrc : List UInt8 → UInt16} {cmd : UInt8} {body : List UInt8}
    {handler : IpmiBlobHandler H m}
    (validated : validateBlobCommand generateCrc cmd body = .ok handler)
    (mgr : ManagerInterface H m) (maxSize : Nat) :
    handleBlobCommand generateCrc cmd mgr body maxSize =
      processBlobCommand generateCrc handler mgr body maxSize := by
  simp only [handleBlobCommand, validated, lift_ok, pure_bind]

theorem handle_accepts {generateCrc : List UInt8 → UInt16} {cmd : UInt8} {body : List UInt8}
    {request : Request} (accepts : Accepts generateCrc cmd body request)
    (mgr : ManagerInterface H m) (maxSize : Nat) :
    handleBlobCommand generateCrc cmd mgr body maxSize = (do
      let answer ← mgr (request.call H)
      return (request.reply answer).sent generateCrc maxSize) := by
  cases accepts with
  | @checked command _ known formed =>
    obtain ⟨payload, rfl, parses⟩ := formed
    unfold withCrc
    obtain ⟨long, some⟩ := parses.long
    have size : (le16 (generateCrc payload) ++ payload).length = payload.length + 2 := by
      simp; omega
    have crc : ¬ u16At 0 (le16 (generateCrc payload) ++ payload) ≠
        generateCrc ((le16 (generateCrc payload) ++ payload).drop 2) := by
      rw [List.drop_left' (length_le16 _), u16At_le16]
      exact fun differs => differs rfl
    have validated : validateBlobCommand generateCrc cmd (le16 (generateCrc payload) ++ payload) =
        .ok (handlers command : IpmiBlobHandler H m) := by
      rw [validate_data generateCrc cmd (by omega), size, known, long, if_neg (by decide), if_neg crc]
    rw [handle_validated validated]
    exact process_served generateCrc (handlers_accept parses _ mgr) maxSize
  | bare count short =>
    have validated : validateBlobCommand generateCrc cmd body =
        .ok (getBlobCount : IpmiBlobHandler H m) := by
      have one : ¬ body.length > 1 := by omega
      have long : validateRequestLength (some .bmcBlobGetCount) body.length = true := rfl
      simp only [validateBlobCommand, count, long, one, if_false]
      rfl
    have serves : getBlobCount mgr body = Request.served .getCount mgr := rfl
    rw [handle_validated validated]
    exact process_served generateCrc serves maxSize

theorem handle_error {generateCrc : List UInt8 → UInt16} {cmd : UInt8} {body : List UInt8} (cc : Cc)
    (failed : cc ≠ .success)
    (validated : validateBlobCommand generateCrc cmd body =
      .ok (errorHandler ⟨cc, none⟩ : IpmiBlobHandler H m)) :
    ∃ cc, cc ≠ Cc.success ∧ ∀ (mgr : ManagerInterface H m) (maxSize : Nat),
      handleBlobCommand generateCrc cmd mgr body maxSize = pure ⟨cc, none⟩ := by
  refine ⟨cc, failed, fun mgr maxSize => ?_⟩
  rw [handle_validated validated]
  exact process_refused generateCrc failed rfl maxSize

theorem handle_refuses {generateCrc : List UInt8 → UInt16} {cmd : UInt8} {body : List UInt8}
    (refuses : ∀ request, ¬ Accepts generateCrc cmd body request) :
    ∃ cc, cc ≠ Cc.success ∧ ∀ (mgr : ManagerInterface H m) (maxSize : Nat),
      handleBlobCommand generateCrc cmd mgr body maxSize = pure ⟨cc, none⟩ := by
  by_cases data : 3 ≤ body.length
  · have verdict := validate_data (H := H) (m := m) generateCrc cmd data
    split_ifs at verdict with short mismatch
    · exact handle_error .reqDataLenInvalid (by decide) verdict
    · exact handle_error .unspecifiedError (by decide) verdict
    · cases known : BlobOEMCommands.ofByte cmd with
      | none =>
        rw [known] at verdict
        exact handle_error .invalidFieldRequest (by decide) verdict
      | some command =>
        rw [known] at verdict short
        rcases parses_or_refuses (H := H) (m := m) (by simpa using short) data with
          ⟨request, parses⟩ | ⟨cc, failed, refused⟩
        · have whole : body = withCrc generateCrc (body.drop 2) := by
            have start := split16 (show 0 + 2 ≤ body.length by omega)
            rwa [List.drop_zero, not_not.mp mismatch, Nat.zero_add] at start
          exact absurd (.checked known ⟨_, whole, parses⟩) (refuses request)
        · refine ⟨cc, failed, fun mgr maxSize => ?_⟩
          rw [handle_validated verdict]
          exact process_refused generateCrc failed (refused mgr) maxSize
  · have verdict := validate_short (H := H) (m := m) generateCrc cmd data
    split_ifs at verdict with short payload
    · exact handle_error .reqDataLenInvalid (by decide) verdict
    · exact handle_error .reqDataLenInvalid (by decide) verdict
    · cases known : BlobOEMCommands.ofByte cmd with
      | none =>
        rw [known] at verdict
        exact handle_error .invalidFieldRequest (by decide) verdict
      | some command =>
        rw [known] at short
        rcases validated_data (by simpa using short) with rfl | more
        · exact absurd (.bare known (by omega)) (refuses .getCount)
        · exact absurd more data

end PhosphorBlobs
