import PhosphorBlobs.Wire.Protocol

/-! The decoders follow the protocol. A payload that parses leads to one manager call and the
raw reply to its answer, one that does not to a refusal before any call. -/
namespace PhosphorBlobs

open Packed (sizeof)

section Decoding

theorem subspan_append {front rest : List UInt8} {offset : Nat} (here : front.length = offset) :
    subspan (front ++ rest) offset = .ok rest := by
  subst here
  simp [subspan]

theorem subspanCount_append {front data extra : List UInt8} {offset count : Nat}
    (here : front.length = offset) (exact : data.length = count) :
    subspanCount (front ++ (data ++ extra)) offset count = .ok data := by
  subst here exact
  simp [subspanCount]

theorem subspan_ok {data : List UInt8} {offset : Nat} (room : offset ≤ data.length) :
    subspan data offset = .ok (data.drop offset) := if_pos room

theorem fetch_ok {α : Type} [Packed α] {data : List UInt8} (room : sizeof α ≤ data.length) :
    fetch α data = .ok (Packed.load data) := if_pos room

theorem fetch_enumerate (crc : UInt16) (blobIdx : UInt32) (rest : List UInt8) :
    fetch BmcBlobEnumerateTx (le16 crc ++ (le32 blobIdx ++ rest)) = .ok ⟨crc, blobIdx⟩ := by
  rw [fetch_ok (by simp [sizeof]; omega)]
  simp [Packed.load, u32At_past _ 0]

theorem fetch_short {α : Type} [Packed α] (make : UInt16 → UInt16 → α) (size : sizeof α = 4)
    (layout : ∀ data, Packed.load data = make (u16At 0 data) (u16At 2 data)) (crc field : UInt16)
    (rest : List UInt8) : fetch α (le16 crc ++ (le16 field ++ rest)) = .ok (make crc field) := by
  rw [fetch_ok (by simp [size]; omega), layout]
  simp [u16At_past _ 0]

theorem fetch_commit (crc session : UInt16) (len : UInt8) (rest : List UInt8) :
    fetch BmcBlobCommitTx (le16 crc ++ (le16 session ++ (len :: rest))) = .ok ⟨crc, session, len⟩ := by
  rw [fetch_ok (by simp [sizeof]; omega)]
  simp [Packed.load, u16At_past _ 0, u8At_past _ 2, u8At_past _ 0]

theorem fetch_read (crc session : UInt16) (offset size : UInt32) (rest : List UInt8) :
    fetch BmcBlobReadTx (le16 crc ++ (le16 session ++ (le32 offset ++ (le32 size ++ rest)))) =
      .ok ⟨crc, session, offset, size⟩ := by
  rw [fetch_ok (by simp [sizeof]; omega)]
  simp [Packed.load, u16At_past _ 0, u32At_past _ 2, u32At_past _ 0, u32At_past _ 6, u32At_past _ 4,
    u32At_past32 _ 0]

theorem fetch_offset {α : Type} [Packed α] (make : UInt16 → UInt16 → UInt32 → α) (size : sizeof α = 8)
    (layout : ∀ data, Packed.load data = make (u16At 0 data) (u16At 2 data) (u32At 4 data))
    (crc session : UInt16) (offset : UInt32) (rest : List UInt8) :
    fetch α (le16 crc ++ (le16 session ++ (le32 offset ++ rest))) = .ok (make crc session offset) := by
  rw [fetch_ok (by simp [size]; omega), layout]
  simp [u16At_past _ 0, u32At_past _ 2, u32At_past _ 0]

theorem stringFromBuffer_terminated (path : Path) : stringFromBuffer (path ++ [0]) = path := by
  simp [stringFromBuffer]

end Decoding

section Accepting

variable {H : Type} {m : Type → Type} [Monad m] [LawfulMonad m]

omit [LawfulMonad m] in
@[simp] theorem lift_ok {α : Type} (a : α) :
    (liftM (Except.ok a : Except Fault α) : ExceptT Fault m α) = pure a := rfl

/-- One manager call and the raw reply to its answer. -/
def Request.served (request : Request) (mgr : ManagerInterface H m) : ExceptT Fault m Resp := do
  let answer ← mgr (request.call H)
  return (request.reply answer).raw

theorem returnStatBlob_raw (info : BlobMeta) : returnStatBlob info = (Reply.ofStat (some info)).raw := by
  cases nothing : info.metadata with
  | nil => simp [returnStatBlob, Reply.ofStat, Reply.raw, statBytes, BmcBlobStatRx, nothing]
  | cons b rest => simp [returnStatBlob, Reply.ofStat, Reply.raw, statBytes, BmcBlobStatRx, nothing]

omit [LawfulMonad m] in
theorem outcome_raw (succeeded : Bool) :
    (if !succeeded then pure responseUnspecifiedError else pure (responseSuccess []) :
      ExceptT Fault m Resp) = pure (Reply.outcome succeeded).raw := by
  cases succeeded <;> rfl

theorem handlers_accept {command : BlobOEMCommands} {payload : List UInt8} {request : Request}
    (parses : Grammar command payload request) (crc : UInt16) (mgr : ManagerInterface H m) :
    handlers command mgr (le16 crc ++ payload) = request.served mgr := by
  cases parses with
  | getCount data => rfl
  | enumerate blobIdx extra =>
    simp only [handlers, enumerateBlob, fetch_enumerate, lift_ok, pure_bind, Request.served]
    refine bind_congr fun (blobId : Path) => ?_
    cases blobId <;> rfl
  | @«open» flags path named =>
    have rest : subspan (le16 crc ++ (le16 flags ++ (path ++ [0]))) (sizeof BmcBlobOpenTx) =
        .ok (path ++ [0]) := by
      rw [← List.append_assoc]
      exact subspan_append (by simp [sizeof])
    have request := fetch_short BmcBlobOpenTx.mk rfl (fun _ => rfl) crc flags (path ++ [0])
    simp only [handlers, openBlob, rest, request, lift_ok, pure_bind, Request.served]
    rw [stringFromBuffer_terminated, if_neg (by simpa using named)]
    refine bind_congr fun (answer : BlobManager.Opened) => ?_
    cases answer <;> rfl
  | read session offset requestedSize extra =>
    simp only [handlers, readBlob]
    rw [if_neg (by simp [sizeof]; omega), fetch_read]
    simp only [lift_ok, pure_bind, Request.served]
    refine bind_congr fun (bytes : List UInt8) => ?_
    cases bytes <;> rfl
  | @write session offset data some =>
    have rest : subspan (le16 crc ++ (le16 session ++ (le32 offset ++ data)))
        (sizeof BmcBlobWriteTx) = .ok data := by
      rw [← List.append_assoc, ← List.append_assoc]
      exact subspan_append (by simp [sizeof])
    have request := fetch_offset BmcBlobWriteTx.mk rfl (fun _ => rfl) crc session offset data
    simp only [handlers, writeBlob, rest, request, lift_ok, pure_bind, Request.served]
    exact bind_congr outcome_raw
  | @commit session len data exact extra =>
    have room : ¬ len.toNat > sizeSub
        (le16 crc ++ (le16 session ++ (len :: (data ++ extra)))).length (sizeof BmcBlobCommitTx) := by
      simp only [sizeof, sizeSub, List.length_append, length_le16, List.length_cons, exact]
      split <;> omega
    have bytes : subspanCount (le16 crc ++ (le16 session ++ (len :: (data ++ extra))))
        (sizeof BmcBlobCommitTx) len.toNat = .ok data := by
      have front : le16 crc ++ (le16 session ++ (len :: (data ++ extra))) =
          (le16 crc ++ (le16 session ++ [len])) ++ (data ++ extra) := by simp
      rw [front]
      exact subspanCount_append (by simp [sizeof]) exact
    simp only [handlers, commitBlob, fetch_commit, lift_ok, pure_bind, Request.served]
    rw [if_neg room, bytes]
    simp only [lift_ok, pure_bind]
    exact bind_congr outcome_raw
  | close session extra =>
    simp only [handlers, closeBlob]
    rw [if_neg (by simp [sizeof]; omega), fetch_short BmcBlobCloseTx.mk rfl fun _ => rfl]
    simp only [lift_ok, pure_bind, Request.served]
    exact bind_congr outcome_raw
  | @delete path named =>
    have rest : subspan (le16 crc ++ (path ++ [0])) (sizeof BmcBlobDeleteTx) = .ok (path ++ [0]) :=
      subspan_append (by simp [sizeof])
    simp only [handlers, deleteBlob, rest, lift_ok, pure_bind, Request.served]
    rw [stringFromBuffer_terminated, if_neg (by simpa using named)]
    exact bind_congr outcome_raw
  | @stat path named =>
    have rest : subspan (le16 crc ++ (path ++ [0])) (sizeof BmcBlobStatTx) = .ok (path ++ [0]) :=
      subspan_append (by simp [sizeof])
    simp only [handlers, statBlob, rest, lift_ok, pure_bind, Request.served]
    rw [stringFromBuffer_terminated, if_neg (by simpa using named)]
    refine bind_congr fun (info : Option BlobMeta) => ?_
    cases info with
    | none => rfl
    | some info => exact congrArg pure (returnStatBlob_raw info)
  | sessionStat session extra =>
    simp only [handlers, sessionStatBlob]
    rw [if_neg (by simp [sizeof]; omega), fetch_short BmcBlobSessionStatTx.mk rfl fun _ => rfl]
    simp only [lift_ok, pure_bind, Request.served]
    refine bind_congr fun (info : Option BlobMeta) => ?_
    cases info with
    | none => rfl
    | some info => exact congrArg pure (returnStatBlob_raw info)
  | @writeMeta session offset data some =>
    have rest : subspan (le16 crc ++ (le16 session ++ (le32 offset ++ data)))
        (sizeof BmcBlobWriteMetaTx) = .ok data := by
      rw [← List.append_assoc, ← List.append_assoc]
      exact subspan_append (by simp [sizeof])
    simp only [handlers, writeMeta]
    rw [if_neg (by simp [sizeof]; omega), fetch_offset BmcBlobWriteMetaTx.mk rfl fun _ => rfl, rest]
    simp only [lift_ok, pure_bind, Request.served]
    exact bind_congr outcome_raw

end Accepting

section Refusing

theorem validated {command : BlobOEMCommands} {least n : Nat}
    (required : minimumLengths command = some least)
    (long : validateRequestLength (some command) n = true) : least ≤ n := by
  simp only [validateRequestLength, Option.bind_some, required] at long
  by_contra short
  rw [if_pos (not_le.mp short)] at long
  cases long

theorem drop_nonempty {data : List UInt8} {offset : Nat} (room : offset < data.length) :
    data.drop offset ≠ [] := by
  intro nothing
  have short := List.drop_eq_nil_iff.mp nothing
  omega

theorem stringFromBuffer_named {data : List UInt8} (named : stringFromBuffer data ≠ []) :
    data = stringFromBuffer data ++ [0] := by
  unfold stringFromBuffer at named ⊢
  split at named
  · exact absurd rfl named
  · rename_i terminated
    obtain ⟨_, last⟩ := not_or.mp terminated
    rw [if_neg terminated]
    exact (List.dropLast_append_getLast? 0 (not_not.mp last)).symm

variable {H : Type} {m : Type → Type} [Monad m] [LawfulMonad m]

/-- A validated body either parses or is refused by the command itself, before any call. -/
theorem parses_or_refuses {command : BlobOEMCommands} {body : List UInt8}
    (long : validateRequestLength (some command) body.length = true) (data : 3 ≤ body.length) :
    (∃ request, Grammar command (body.drop 2) request) ∨
      ∃ cc, cc ≠ Cc.success ∧ ∀ mgr : ManagerInterface H m,
        handlers command mgr body = pure ⟨cc, none⟩ := by
  cases command with
  | bmcBlobGetCount =>
    exact .inl ⟨_, .getCount (drop_nonempty (by omega))⟩
  | bmcBlobEnumerate =>
    have room : 6 ≤ body.length := validated rfl long
    rw [split32 room]
    exact .inl ⟨_, .enumerate _ _⟩
  | bmcBlobOpen =>
    have room : 6 ≤ body.length := validated rfl long
    by_cases named : stringFromBuffer (body.drop 4) = []
    · refine .inr ⟨.reqDataLenInvalid, by decide, fun mgr => ?_⟩
      have rest : subspan body (sizeof BmcBlobOpenTx) = .ok (body.drop 4) :=
        subspan_ok (by simp only [sizeof]; omega)
      simp only [handlers, openBlob, rest, lift_ok, pure_bind]
      rw [if_pos (by rw [named]; rfl)]
      rfl
    · have text := stringFromBuffer_named named
      rw [split16 (show 2 + 2 ≤ body.length by omega), text]
      exact .inl ⟨_, .open _ named⟩
  | bmcBlobRead =>
    have room : 12 ≤ body.length := validated rfl long
    rw [split16 (show 2 + 2 ≤ body.length by omega), split32 (show 4 + 4 ≤ body.length by omega),
      split32 (show 8 + 4 ≤ body.length by omega)]
    exact .inl ⟨_, .read _ _ _ _⟩
  | bmcBlobWrite =>
    have room : 9 ≤ body.length := validated rfl long
    rw [split16 (show 2 + 2 ≤ body.length by omega), split32 (show 4 + 4 ≤ body.length by omega)]
    exact .inl ⟨_, .write _ _ (drop_nonempty (by omega))⟩
  | bmcBlobCommit =>
    have room : 5 ≤ body.length := validated rfl long
    have front := split16 (show 2 + 2 ≤ body.length by omega)
    obtain ⟨len, more, behind⟩ := List.exists_cons_of_ne_nil
      (drop_nonempty (show 4 < body.length by omega))
    have size := congrArg List.length behind
    rw [List.length_drop, List.length_cons] at size
    rw [behind] at front
    by_cases fits : len.toNat ≤ more.length
    · have cut : more = more.take len.toNat ++ more.drop len.toNat := (List.take_append_drop _ _).symm
      rw [front, cut]
      exact .inl ⟨_, .commit _ len (by rw [List.length_take]; omega) _⟩
    · refine .inr ⟨.reqDataLenInvalid, by decide, fun mgr => ?_⟩
      have whole : body = le16 (u16At 0 body) ++ (le16 (u16At 2 body) ++ (len :: more)) := by
        have start := split16 (show 0 + 2 ≤ body.length by omega)
        rwa [front, List.drop_zero] at start
      have short : len.toNat > sizeSub body.length (sizeof BmcBlobCommitTx) := by
        simp only [sizeof, sizeSub]
        rw [if_pos room]
        omega
      rw [whole] at short ⊢
      simp only [handlers, commitBlob, fetch_commit, lift_ok, pure_bind]
      rw [if_pos short]
      rfl
  | bmcBlobClose =>
    have room : 4 ≤ body.length := validated rfl long
    rw [split16 room]
    exact .inl ⟨_, .close _ _⟩
  | bmcBlobDelete =>
    by_cases named : stringFromBuffer (body.drop 2) = []
    · refine .inr ⟨.reqDataLenInvalid, by decide, fun mgr => ?_⟩
      have rest : subspan body (sizeof BmcBlobDeleteTx) = .ok (body.drop 2) :=
        subspan_ok (by simp only [sizeof]; omega)
      simp only [handlers, deleteBlob, rest, lift_ok, pure_bind]
      rw [if_pos (by rw [named]; rfl)]
      rfl
    · rw [stringFromBuffer_named named]
      exact .inl ⟨_, .delete named⟩
  | bmcBlobStat =>
    by_cases named : stringFromBuffer (body.drop 2) = []
    · refine .inr ⟨.reqDataLenInvalid, by decide, fun mgr => ?_⟩
      have rest : subspan body (sizeof BmcBlobStatTx) = .ok (body.drop 2) :=
        subspan_ok (by simp only [sizeof]; omega)
      simp only [handlers, statBlob, rest, lift_ok, pure_bind]
      rw [if_pos (by rw [named]; rfl)]
      rfl
    · rw [stringFromBuffer_named named]
      exact .inl ⟨_, .stat named⟩
  | bmcBlobSessionStat =>
    have room : 4 ≤ body.length := validated rfl long
    rw [split16 room]
    exact .inl ⟨_, .sessionStat _ _⟩
  | bmcBlobWriteMeta =>
    have room : 9 ≤ body.length := validated rfl long
    rw [split16 (show 2 + 2 ≤ body.length by omega), split32 (show 4 + 4 ≤ body.length by omega)]
    exact .inl ⟨_, .writeMeta _ _ (drop_nonempty (by omega))⟩

end Refusing

end PhosphorBlobs
