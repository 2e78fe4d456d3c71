import PhosphorBlobs.Wire.Requests

/-! Accesses of the decoders. The length table and the decoders are in different functions;
a body that passes the one is long enough for the other, whatever the command. -/
namespace PhosphorBlobs

open Packed (sizeof)

/-- The size of the struct in front of the request, which a command skips or reads. -/
def structBytes : BlobOEMCommands → Nat
  | .bmcBlobGetCount => 0
  | .bmcBlobEnumerate => sizeof BmcBlobEnumerateTx
  | .bmcBlobOpen => sizeof BmcBlobOpenTx
  | .bmcBlobRead => sizeof BmcBlobReadTx
  | .bmcBlobWrite => sizeof BmcBlobWriteTx
  | .bmcBlobCommit => sizeof BmcBlobCommitTx
  | .bmcBlobClose => sizeof BmcBlobCloseTx
  | .bmcBlobDelete => sizeof BmcBlobDeleteTx
  | .bmcBlobStat => sizeof BmcBlobStatTx
  | .bmcBlobSessionStat => sizeof BmcBlobSessionStatTx
  | .bmcBlobWriteMeta => sizeof BmcBlobWriteMetaTx

theorem minimumLengths_cover {command : BlobOEMCommands} {n : Nat}
    (long : validateRequestLength (some command) n = true) : structBytes command ≤ n := by
  cases required : minimumLengths command with
  | none =>
    cases command with
    | bmcBlobGetCount => exact Nat.zero_le n
    | _ => cases required
  | some least =>
    have covered : structBytes command ≤ least := by
      cases command with
      | bmcBlobGetCount => cases required
      | _ => cases required; decide
    exact covered.trans (validated required long)

theorem Grammar.inhabited (command : BlobOEMCommands) :
    ∃ payload request, Grammar command payload request := by
  have text : [(97 : UInt8)] ≠ [] := List.cons_ne_nil _ _
  cases command with
  | bmcBlobGetCount => exact ⟨_, _, .getCount text⟩
  | bmcBlobEnumerate => exact ⟨_, _, .enumerate 0 []⟩
  | bmcBlobOpen => exact ⟨_, _, .open 0 text⟩
  | bmcBlobRead => exact ⟨_, _, .read 0 0 0 []⟩
  | bmcBlobWrite => exact ⟨_, _, .write 0 0 text⟩
  | bmcBlobCommit => exact ⟨_, _, .commit 0 1 (show [(97 : UInt8)].length = 1 from rfl) []⟩
  | bmcBlobClose => exact ⟨_, _, .close 0 []⟩
  | bmcBlobDelete => exact ⟨_, _, .delete text⟩
  | bmcBlobStat => exact ⟨_, _, .stat text⟩
  | bmcBlobSessionStat => exact ⟨_, _, .sessionStat 0 []⟩
  | bmcBlobWriteMeta => exact ⟨_, _, .writeMeta 0 0 text⟩

variable {H : Type}

theorem handlers_ne_error (M : ManagerAnswers H) (command : BlobOEMCommands) (response : Resp) :
    (handlers command : IpmiBlobHandler H (StateM (List (ManagerEvent H)))) ≠ errorHandler response := by
  intro same
  obtain ⟨payload, request, parses⟩ := Grammar.inhabited command
  have served := handlers_accept parses 0 (recorded M)
  rw [same] at served
  have calls := congrArg (fun run => (run.run []).2.length) served
  exact absurd calls Nat.zero_ne_one

variable {generateCrc : List UInt8 → UInt16} {cmd : UInt8} {body : List UInt8}

theorem validated_long (M : ManagerAnswers H) {command : BlobOEMCommands}
    (known : BlobOEMCommands.ofByte cmd = some command)
    (own : validateBlobCommand generateCrc cmd body =
      .ok (handlers command : IpmiBlobHandler H (StateM (List (ManagerEvent H))))) :
    validateRequestLength (some command) body.length = true := by
  by_contra short
  have refused : (!validateRequestLength (some command) body.length) = true := by simpa using short
  have verdict : validateBlobCommand generateCrc cmd body =
      .ok (errorHandler responseReqDataLenInvalid :
        IpmiBlobHandler H (StateM (List (ManagerEvent H)))) := by
    by_cases data : 3 ≤ body.length
    · rw [validate_data generateCrc cmd data, known, if_pos refused]
    · rw [validate_short generateCrc cmd data, known, if_pos refused]
  exact handlers_ne_error M command _ (Except.ok.inj (own.symm.trans verdict))

/-- A command that runs on a validated body reads its struct inside of the body, subtracts
no more than there is, and makes no other access that could fail. -/
theorem validated_accesses_in_bounds (generateCrc : List UInt8 → UInt16) (M : ManagerAnswers H)
    (cmd : UInt8) (body : List UInt8) (maxSize : Nat) (seen : List (ManagerEvent H))
    (command : BlobOEMCommands) (known : BlobOEMCommands.ofByte cmd = some command)
    (own : validateBlobCommand generateCrc cmd body =
      .ok (handlers command : IpmiBlobHandler H (StateM (List (ManagerEvent H))))) :
    (∀ n, (command, n) ∈ [(BlobOEMCommands.bmcBlobEnumerate, 6), (.bmcBlobOpen, 4), (.bmcBlobClose, 4),
      (.bmcBlobSessionStat, 4), (.bmcBlobCommit, 5), (.bmcBlobWrite, 8), (.bmcBlobWriteMeta, 8),
      (.bmcBlobRead, 12), (.bmcBlobDelete, 2), (.bmcBlobStat, 2)] →
        structBytes command = n ∧ n ≤ body.length) ∧
    sizeSub body.length (structBytes command) + structBytes command = body.length ∧
    ∃ result, ((processBlobCommand generateCrc (handlers command) (recorded M) body maxSize).run
      seen).1 = .ok result := by
  have room := minimumLengths_cover (validated_long M known own)
  refine ⟨?_, ?_, ?_⟩
  · intro n listed
    have size : structBytes command = n := by
      cases command <;> simp at listed <;> exact listed.symm
    exact ⟨size, size ▸ room⟩
  · rw [sizeSub, if_pos room, Nat.sub_add_cancel room]
  · obtain ⟨result, total⟩ := attended_total generateCrc M cmd body maxSize seen
    rw [attended, handle_validated own] at total
    exact ⟨result, total⟩

theorem validated_accesses_in_bounds_commit :
    structBytes .bmcBlobCommit = 5 ∧ 5 ≤ [0x34, (0x12 : UInt8), 5, 0, 1, 97].length := by
  have bounds := validated_accesses_in_bounds (fun _ => 0x1234) agreeable 5
    [0x34, 0x12, 5, 0, 1, 97] 64 [] .bmcBlobCommit rfl rfl
  exact bounds.1 5 (by simp)

theorem read_struct_longer :
    ¬ ∀ (generateCrc : List UInt8 → UInt16) (cmd : UInt8) (body : List UInt8)
      (command : BlobOEMCommands), BlobOEMCommands.ofByte cmd = some command →
      validateBlobCommand generateCrc cmd body =
        .ok (handlers command : IpmiBlobHandler Unit (StateM (List (ManagerEvent Unit)))) →
      ∀ n, (command, n) ∈ [(BlobOEMCommands.bmcBlobEnumerate, 6), (.bmcBlobOpen, 4),
        (.bmcBlobClose, 4), (.bmcBlobSessionStat, 4), (.bmcBlobCommit, 5), (.bmcBlobWrite, 8),
        (.bmcBlobWriteMeta, 8), (.bmcBlobRead, 10), (.bmcBlobDelete, 2), (.bmcBlobStat, 2)] →
        structBytes command = n ∧ n ≤ body.length := by
  intro sizes
  obtain ⟨size, _⟩ := sizes (fun _ => 0) 3 [0, 0, 5, 0, 0, 0, 0, 0, 16, 0, 0, 0] .bmcBlobRead rfl rfl
    10 (by simp)
  exact absurd size (by decide)

end PhosphorBlobs
