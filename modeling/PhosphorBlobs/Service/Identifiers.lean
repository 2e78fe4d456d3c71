import PhosphorBlobs.Service.Errors

/-! Blob identifiers. On the wire an identifier ends in a NUL, and that last byte is all that is
checked: whatever stands in front of it is the path, which may hold further NUL bytes. -/
namespace PhosphorBlobs

open Packed (sizeof)

def blobIdField : BlobOEMCommands → List UInt8 → Option (List UInt8)
  | .bmcBlobOpen, body => some (body.drop (sizeof BmcBlobOpenTx))
  | .bmcBlobDelete, body => some (body.drop (sizeof BmcBlobDeleteTx))
  | .bmcBlobStat, body => some (body.drop (sizeof BmcBlobStatTx))
  | _, _ => none

structure Naming (generateCrc : List UInt8 → UInt16) (cmd : UInt8) (body field : List UInt8) : Prop where
  field : ∃ command, BlobOEMCommands.ofByte cmd = some command ∧ blobIdField command body = some field
  crc : u16At 0 body = generateCrc (body.drop 2)

variable {H : Type} {generateCrc : List UInt8 → UInt16} {cmd : UInt8} {body field : List UInt8}

def pathReceived (generateCrc : List UInt8 → UInt16) (M : ManagerAnswers H) (cmd : UInt8)
    (body : List UInt8) (maxSize : Nat) (seen : List (ManagerEvent H)) : Option Path :=
  ((attended generateCrc M cmd body maxSize seen).2.drop seen.length).findSome? (·.call.path?)

section Fields

variable (H)

theorem Naming.path {request : Request} (naming : Naming generateCrc cmd body field)
    (accepts : Accepts generateCrc cmd body request) :
    ∃ path, (request.call H).path? = some path ∧ path ≠ [] ∧ field = path ++ [0] := by
  obtain ⟨⟨command, known, named⟩, _⟩ := naming
  cases accepts with
  | bare count short =>
    rw [known] at count
    cases count
    cases named
  | checked also formed =>
    rw [known] at also
    cases also
    obtain ⟨payload, rfl, parses⟩ := formed
    cases parses with
    | @«open» flags path letters =>
      refine ⟨path, rfl, letters, ?_⟩
      rw [← Option.some.inj named, withCrc, ← List.append_assoc]
      exact List.drop_left' (by simp [sizeof])
    | @delete path letters | @stat path letters =>
      refine ⟨path, rfl, letters, ?_⟩
      rw [← Option.some.inj named, withCrc]
      exact List.drop_left' (by simp [sizeof])
    | _ => cases named

theorem Naming.accepts (naming : Naming generateCrc cmd body field) {path : Path}
    (letters : path ≠ []) (terminated : field = path ++ [0]) :
    ∃ request, Accepts generateCrc cmd body request ∧ (request.call H).path? = some path := by
  obtain ⟨⟨command, known, named⟩, crc⟩ := naming
  have long : ∀ n, body.drop n = field → n + 2 ≤ body.length := by
    intro n rest
    have size := congrArg List.length (rest.trans terminated)
    have some := List.length_pos_of_ne_nil letters
    rw [List.length_drop, List.length_append, List.length_singleton] at size
    omega
  have whole : 2 ≤ body.length → body = withCrc generateCrc (body.drop 2) := by
    intro room
    have start := split16 (show 0 + 2 ≤ body.length by omega)
    rwa [List.drop_zero, Nat.zero_add, crc] at start
  cases command with
  | bmcBlobOpen =>
    have rest : body.drop 4 = field := Option.some.inj named
    have room := long 4 rest
    have payload := split16 (show 2 + 2 ≤ body.length by omega)
    rw [rest, terminated] at payload
    refine ⟨.open (u16At 2 body) path, .checked known ⟨_, whole (by omega), ?_⟩, rfl⟩
    rw [payload]
    exact .open _ letters
  | bmcBlobDelete =>
    have rest : body.drop 2 = field := Option.some.inj named
    have room := long 2 rest
    refine ⟨.delete path, .checked known ⟨_, whole (by omega), ?_⟩, rfl⟩
    rw [rest, terminated]
    exact .delete letters
  | bmcBlobStat =>
    have rest : body.drop 2 = field := Option.some.inj named
    have room := long 2 rest
    refine ⟨.stat path, .checked known ⟨_, whole (by omega), ?_⟩, rfl⟩
    rw [rest, terminated]
    exact .stat letters
  | _ => cases named

end Fields

theorem pathReceived_accepts {request : Request} (accepts : Accepts generateCrc cmd body request)
    (M : ManagerAnswers H) (maxSize : Nat) (seen : List (ManagerEvent H)) :
    pathReceived generateCrc M cmd body maxSize seen = (request.call H).path? := by
  have run := congrArg Prod.snd (attended_accepts accepts M maxSize seen)
  rw [pathReceived, run, List.drop_left, List.findSome?_singleton]

theorem Naming.cases (naming : Naming generateCrc cmd body field) (M : ManagerAnswers H)
    (maxSize : Nat) (seen : List (ManagerEvent H)) :
    (∃ path, path ≠ [] ∧ field = path ++ [0] ∧
      pathReceived generateCrc M cmd body maxSize seen = some path) ∨
    (∀ path, path ≠ [] → field ≠ path ++ [0]) ∧
      pathReceived generateCrc M cmd body maxSize seen = none ∧
      ∃ cc, cc ≠ Cc.success ∧ attended generateCrc M cmd body maxSize seen = (.ok ⟨cc, none⟩, seen) := by
  rcases attended_cases generateCrc M cmd body maxSize seen with
    ⟨request, accepts, _⟩ | ⟨refuses, cc, failed, run⟩
  · obtain ⟨path, called, letters, terminated⟩ := naming.path H accepts
    exact .inl ⟨path, letters, terminated, (pathReceived_accepts accepts M maxSize seen).trans called⟩
  · refine .inr ⟨fun path letters terminated => ?_, ?_, cc, failed, run⟩
    · obtain ⟨request, accepts, _⟩ := naming.accepts H letters terminated
      exact refuses request accepts
    · rw [pathReceived, run, List.drop_length]
      rfl

theorem Naming.received_iff (naming : Naming generateCrc cmd body field) (M : ManagerAnswers H)
    (maxSize : Nat) (seen : List (ManagerEvent H)) (path : Path) :
    pathReceived generateCrc M cmd body maxSize seen = some path ↔
      path ≠ [] ∧ field = path ++ [0] := by
  rcases naming.cases M maxSize seen with ⟨q, letters, terminated, received⟩ | ⟨unformed, received, _⟩
  · rw [received, Option.some.injEq, terminated, List.append_left_inj]
    constructor
    · rintro rfl
      exact ⟨letters, rfl⟩
    · exact fun same => same.2
  · rw [received]
    exact ⟨nofun, fun ⟨letters, terminated⟩ => absurd terminated (unformed path letters)⟩

theorem terminated_facts {path : Path} (terminated : field = path ++ [0]) :
    (0 ∈ path ↔ 0 ∈ field.dropLast) ∧ Bytes.cString field = Bytes.cString path := by
  subst terminated
  exact ⟨by rw [List.dropLast_concat], Bytes.cString_terminated path⟩

variable [DecidableEq H] {A : Answers H} {w : World H}

theorem delete_open_refused (sound : Sound w) {s : SessionId} {item : SessionInfo H}
    (known : w.manager.sessions.lookup s = some item) (clock : Clock)
    (accepts : Accepts generateCrc cmd body (.delete item.blobId)) (maxSize : Nat) :
    (serve generateCrc A clock cmd body maxSize w).1 = .ok responseUnspecifiedError ∧
      ∃ probes, (serve generateCrc A clock cmd body maxSize w).2.calls = w.calls ++ probes ∧
        ∀ e ∈ probes, e.call = .canHandleBlob item.blobId := by
  have guarded := sound.tables.count_pos known
  have outcome := deleteBlob_outcome A item.blobId w
  rw [serve_accepts accepts A clock maxSize w]
  have done : blobManager A clock ((Request.delete item.blobId).call H) w =
    BlobManager.deleteBlob A item.blobId w := rfl
  rw [done]
  generalize (BlobManager.deleteBlob A item.blobId w).1 = answer at outcome ⊢
  generalize (BlobManager.deleteBlob A item.blobId w).2 = v at outcome ⊢
  cases outcome with
  | @noHandler probes routed => exact ⟨rfl, probes, rfl, routed.asks⟩
  | @isOpen probes h routed count => exact ⟨rfl, probes, rfl, routed.asks⟩
  | forwarded routed count => omega

/-- Only the last byte of a blob_id field is checked. The manager receives what stands before
it, and nothing where that is empty or the last byte is not NUL. Paths are told apart byte by
byte, which is as C strings as long as no NUL stands before the last byte. -/
theorem blob_ids_end_in_nul (naming : Naming generateCrc cmd body field) (M : ManagerAnswers H)
    (maxSize : Nat) (seen : List (ManagerEvent H)) :
    (∀ path, pathReceived generateCrc M cmd body maxSize seen = some path ↔
      path ≠ [] ∧ field = path ++ [0]) ∧
    (pathReceived generateCrc M cmd body maxSize seen = none →
      (attended generateCrc M cmd body maxSize seen).2 = seen ∧
      ∃ cc, cc ≠ Cc.success ∧ (attended generateCrc M cmd body maxSize seen).1 = .ok ⟨cc, none⟩) ∧
    ∀ path, pathReceived generateCrc M cmd body maxSize seen = some path →
      (0 ∈ path ↔ 0 ∈ field.dropLast) ∧ (0 ∉ path → path = Bytes.cString field) ∧
      (∀ cmd' body' field' maxSize' seen' path', Naming generateCrc cmd' body' field' →
        pathReceived generateCrc M cmd' body' maxSize' seen' = some path' →
          (path = path' ↔ field = field') ∧
          (0 ∉ path → 0 ∉ path' → (path = path' ↔ Bytes.cString field = Bytes.cString field'))) ∧
      (BlobOEMCommands.ofByte cmd = some .bmcBlobDelete →
        ∀ (A : Answers H) (sessionTimeout : Time) (next : UInt16)
          (requests : List (Clock × ManagerCall H)) (clock : Clock) (s : SessionId)
          (item : SessionInfo H),
        let w := (history A sessionTimeout next requests).2
        let done := serve generateCrc A clock cmd body maxSize w
        w.manager.sessions.lookup s = some item →
        Bytes.cString item.blobId = Bytes.cString field →
          (path ≠ item.blobId → 0 ∈ path ∨ 0 ∈ item.blobId) ∧
          (path = item.blobId → done.1 = .ok responseUnspecifiedError ∧
            ∃ probes, done.2.calls = w.calls ++ probes ∧
              ∀ e ∈ probes, e.call = .canHandleBlob path)) := by
  have received := naming.received_iff M maxSize seen
  refine ⟨received, fun nothing => ?_, fun path here => ?_⟩
  · rcases naming.cases M maxSize seen with ⟨_, _, _, called⟩ | ⟨_, _, cc, failed, run⟩
    · rw [called] at nothing
      cases nothing
    · exact ⟨congrArg Prod.snd run, cc, failed, congrArg Prod.fst run⟩
  obtain ⟨letters, terminated⟩ := (received path).mp here
  obtain ⟨inner, denotes⟩ := terminated_facts terminated
  have whole : ∀ {q : Path}, 0 ∉ q → Bytes.cString q = q := Bytes.cString_eq_self_iff.mpr
  refine ⟨inner, fun plain => (denotes.trans (whole plain)).symm, ?_, ?_⟩
  · intro cmd' body' field' maxSize' seen' path' naming' here'
    obtain ⟨_, terminated'⟩ := (naming'.received_iff M maxSize' seen' path').mp here'
    obtain ⟨_, denotes'⟩ := terminated_facts terminated'
    refine ⟨by rw [terminated, terminated', List.append_left_inj], fun plain plain' => ?_⟩
    rw [denotes, denotes', whole plain, whole plain']
  · intro delete A sessionTimeout next requests clock s item w done known same
    refine ⟨fun other => ?_, ?_⟩
    · by_contra plain
      obtain ⟨mine, its⟩ := not_or.mp plain
      rw [denotes, whole mine, whole its] at same
      exact other same.symm
    · rintro rfl
      obtain ⟨request, accepts, called⟩ := naming.accepts H letters terminated
      have command := accepts.command (H := H)
      rw [delete] at command
      cases request with
      | delete q =>
        cases called
        exact delete_open_refused (history_sound A sessionTimeout next requests) known clock accepts maxSize
      | _ => cases command

/-- A delete of "a", NUL, "b" while "a" is open. As C strings the two are the same. -/
theorem blob_ids_end_in_nul_inner :
    pathReceived (fun _ => 0x1234) agreeable 7 [0x34, 0x12, 97, 0, 98, 0] 64 [] = some [97, 0, 98] ∧
    (([97, 0, 98] : Path) = [97] ↔ ([97, 0, 98, 0] : List UInt8) = [97, 0]) ∧
    (0 ∈ ([97, 0, 98] : Path) ∨ 0 ∈ ([97] : Path)) := by
  have named : Naming (fun _ => 0x1234) 7 [0x34, 0x12, 97, 0, 98, 0] [97, 0, 98, 0] :=
    ⟨⟨.bmcBlobDelete, rfl, rfl⟩, rfl⟩
  have plain : Naming (fun _ => 0x1234) 7 [0x34, 0x12, 97, 0] [97, 0] :=
    ⟨⟨.bmcBlobDelete, rfl, rfl⟩, rfl⟩
  obtain ⟨received, _, facts⟩ := blob_ids_end_in_nul named agreeable 64 []
  have here := (received [97, 0, 98]).mpr ⟨by decide, rfl⟩
  obtain ⟨_, _, told_apart, guarded⟩ := facts [97, 0, 98] here
  have known := (crowding_crowds 1 (by decide)).sessions 0
  refine ⟨here, (told_apart 7 _ _ 64 [] [97] plain rfl).1, ?_⟩
  exact (guarded rfl willing 60 0 (crowding 1) ⟨0, 0⟩ 0 ⟨[97], some (), 1, 0⟩ known rfl).1 (by decide)

theorem inner_nul_received :
    ¬ ∀ (generateCrc : List UInt8 → UInt16) (cmd : UInt8) (body field : List UInt8)
      (M : ManagerAnswers Unit) (maxSize : Nat) (seen : List (ManagerEvent Unit)) (path : Path),
      Naming generateCrc cmd body field →
      pathReceived generateCrc M cmd body maxSize seen = some path → path ≠ [] ∧ 0 ∉ path := by
  intro plain
  have named : Naming (fun _ => 0x1234) 7 [0x34, 0x12, 97, 0, 98, 0] [97, 0, 98, 0] :=
    ⟨⟨.bmcBlobDelete, rfl, rfl⟩, rfl⟩
  exact (plain (fun _ => 0x1234) 7 _ _ agreeable 64 [] [97, 0, 98] named rfl).2 (by simp)

end PhosphorBlobs
