import PhosphorBlobs.Example

/-! What each method of the example handler does, and that none of them leaves its buffer. -/
namespace PhosphorBlobs

namespace ExampleBlobHandler

variable {garbage : Buffer} {x : ExampleBlobHandler} {s : UInt16}

theorem getSession_apply {α : Type} (f : Option ExampleBlob → OnExample α) :
    (getSession s >>= f) x = f (x.sessions.lookup s) x := rfl

theorem canHandleBlob_apply {α : Type} (path : Path) (f : Bool → OnExample α) :
    (canHandleBlob path >>= f) x = f (path == supportedPath) x := rfl

theorem get_apply_bind {α : Type} (f : ExampleBlobHandler → OnExample α) :
    ((get : OnExample ExampleBlobHandler) >>= f) x = f x x := rfl

theorem remain_toNat {offset : UInt32} (inside : offset.toNat < kBufferSize) :
    (UInt32.ofNat (sizeSub kBufferSize offset.toNat)).toNat = kBufferSize - offset.toNat := by
  have small : kBufferSize - offset.toNat < 2 ^ 32 := by
    unfold kBufferSize
    omega
  rw [sizeSub, if_pos inside.le, UInt32.toNat_ofNat_of_lt' small]

def staged (sess : ExampleBlob) (offset n : Nat) : List UInt8 :=
  Overlay.slice sess.buffer.bytes offset (min (kBufferSize - offset) n)

theorem read_unknown (unknown : x.sessions.lookup s = none) (offset requestedSize : UInt32) :
    read s offset requestedSize x = (.ok [], x) := by
  rw [read, getSession_apply, unknown]
  rfl

theorem min_toNat (a b : UInt32) : (min a b).toNat = min a.toNat b.toNat := by
  have either : min a b = if a ≤ b then a else b := rfl
  rw [either]
  split
  · rename_i le
    exact (Nat.min_eq_left (UInt32.le_iff_toNat_le.mp le)).symm
  · rename_i gt
    have below := UInt32.le_iff_toNat_le.not.mp gt
    exact (Nat.min_eq_right (by omega)).symm

theorem read_known {sess : ExampleBlob} (known : x.sessions.lookup s = some sess)
    (offset requestedSize : UInt32) :
    read s offset requestedSize x = (.ok (staged sess offset.toNat requestedSize.toNat), x) := by
  rw [read, getSession_apply, known]
  by_cases inside : offset.toNat < kBufferSize
  · simp only
    rw [if_neg (by omega)]
    have all := remain_toNat inside
    have loaded : sess.buffer.load offset.toNat
        (min (UInt32.ofNat (sizeSub kBufferSize offset.toNat)) requestedSize).toNat =
        .ok (staged sess offset.toNat requestedSize.toNat) := by
      rw [Buffer.load, subspanCount, min_toNat, all, sess.buffer.sized, if_pos (by omega)]
      rfl
    rw [loaded]
    rfl
  · have nothing : staged sess offset.toNat requestedSize.toNat = [] := by
      have none_left : kBufferSize - offset.toNat = 0 := by omega
      rw [staged, none_left, Nat.zero_min, Overlay.slice, List.take_zero]
    rw [nothing]
    simp only
    rw [if_pos (by omega)]
    rfl

def written (sess : ExampleBlob) (buffer : Buffer) (n : Nat) : ExampleBlob :=
  { sess with length := UInt32.ofNat (max n sess.length.toNat), buffer }

theorem write_unknown (unknown : x.sessions.lookup s = none) (offset : UInt32) (data : List UInt8) :
    write s offset data x = (.ok false, x) := by
  rw [write, getSession_apply, unknown]
  rfl

theorem write_exceeds {sess : ExampleBlob} (known : x.sessions.lookup s = some sess) {offset : UInt32}
    {data : List UInt8}
    (exceeds : ¬ (offset.toNat < kBufferSize ∧ offset.toNat + data.length ≤ kBufferSize)) :
    write s offset data x = (.ok false, x) := by
  rw [write, getSession_apply, known]
  by_cases inside : offset.toNat < kBufferSize
  · have all := remain_toNat inside
    simp only
    rw [if_neg (by omega), if_pos (by omega)]
    rfl
  · simp only
    rw [if_pos (by omega)]
    rfl

theorem store_fits (buffer : Buffer) {offset : Nat} {data : List UInt8}
    (room : offset + data.length ≤ kBufferSize) :
    ∃ after : Buffer, buffer.store offset data = .ok after ∧
      after.bytes = Overlay.write buffer.bytes ⟨offset, data⟩ :=
  ⟨_, dif_pos room, rfl⟩

theorem write_fits {sess : ExampleBlob} (known : x.sessions.lookup s = some sess) {offset : UInt32}
    {data : List UInt8} (inside : offset.toNat < kBufferSize)
    (room : offset.toNat + data.length ≤ kBufferSize) :
    ∃ buffer : Buffer, buffer.bytes = Overlay.write sess.buffer.bytes ⟨offset.toNat, data⟩ ∧
      write s offset data x = (.ok true,
        ⟨x.sessions.insert s (written sess buffer (offset.toNat + data.length))⟩) := by
  have all := remain_toNat inside
  obtain ⟨after, stored, bytes⟩ := store_fits sess.buffer room
  refine ⟨after, bytes, ?_⟩
  rw [write, getSession_apply, known]
  simp only
  rw [if_neg (by omega), if_neg (by omega), stored]
  rfl

theorem open_run (flags : UInt16) (path : Path) :
    ExampleBlobHandler.open garbage s flags path x =
      if path = supportedPath ∧ x.sessions.lookup s = none then
        (.ok true, ⟨x.sessions.insert s (.new s flags garbage)⟩)
      else (.ok false, x) := by
  rw [ExampleBlobHandler.open, canHandleBlob_apply]
  by_cases same : path = supportedPath
  · have yes : (path == supportedPath) = true := beq_iff_eq.mpr same
    simp only [yes, Bool.not_true, Bool.false_eq_true, if_false, get_apply_bind]
    cases known : x.sessions.lookup s with
    | none =>
      simp only [Option.isSome_none, Bool.false_eq_true, if_false, same, and_self, if_true]
      rfl
    | some sess =>
      simp only [Option.isSome_some, if_true, reduceCtorEq, and_false, if_false]
      rfl
  · have no : (path == supportedPath) = false := beq_eq_false_iff_ne.mpr same
    simp only [no, Bool.not_false, if_true]
    rw [if_neg (show ¬ (path = supportedPath ∧ x.sessions.lookup s = none) from fun both => same both.1)]
    rfl

theorem close_run : close s x =
    if (x.sessions.lookup s).isSome then (.ok true, ⟨x.sessions.erase s⟩) else (.ok false, x) := by
  rw [close, getSession_apply]
  cases x.sessions.lookup s <;> rfl

theorem sessionStat_run : sessionStat s x =
    (.ok ((x.sessions.lookup s).map fun sess => ⟨sess.state, sess.length, []⟩), x) := by
  rw [sessionStat, getSession_apply]
  cases x.sessions.lookup s <;> rfl

theorem commit_run (data : List UInt8) : commit s data x = (.ok false, x) := by
  rw [commit, getSession_apply]
  cases x.sessions.lookup s <;> rfl

theorem expire_run : expire s x = (.ok false, x) := by
  rw [expire, getSession_apply]
  cases x.sessions.lookup s <;> rfl

theorem method_total (garbage : Buffer) (call : HandlerCall) (x : ExampleBlobHandler) :
    ∃ answer, (method garbage call x).1 = .ok answer := by
  cases call with
  | canHandleBlob path | getBlobIds | deleteBlob path | stat path | writeMeta s offset data =>
    exact ⟨_, rfl⟩
  | «open» s flags path =>
    rw [method, open_run]
    split <;> exact ⟨_, rfl⟩
  | read s offset requestedSize =>
    cases known : x.sessions.lookup s with
    | none => exact ⟨_, congrArg Prod.fst (read_unknown known offset requestedSize)⟩
    | some sess => exact ⟨_, congrArg Prod.fst (read_known known offset requestedSize)⟩
  | write s offset data =>
    cases known : x.sessions.lookup s with
    | none => exact ⟨_, congrArg Prod.fst (write_unknown known offset data)⟩
    | some sess =>
      by_cases fits : offset.toNat < kBufferSize ∧ offset.toNat + data.length ≤ kBufferSize
      · obtain ⟨_, _, run⟩ := write_fits known fits.1 fits.2
        exact ⟨_, congrArg Prod.fst run⟩
      · exact ⟨_, congrArg Prod.fst (write_exceeds known fits)⟩
  | commit s data => exact ⟨_, congrArg Prod.fst (commit_run data)⟩
  | close s =>
    rw [method, close_run]
    split <;> exact ⟨_, rfl⟩
  | sessionStat s => exact ⟨_, congrArg Prod.fst sessionStat_run⟩
  | expire s => exact ⟨_, congrArg Prod.fst expire_run⟩

theorem method_idle {call : HandlerCall} (garbage : Buffer) (x : ExampleBlobHandler)
    (unopened : ∀ s flags path, call ≠ .open s flags path) (unclosed : ∀ s, call ≠ .close s)
    (unwritten : ∀ s offset data, call ≠ .write s offset data) : (method garbage call x).2 = x := by
  cases call with
  | canHandleBlob path | getBlobIds | deleteBlob path | stat path | writeMeta s offset data => rfl
  | «open» s flags path => exact absurd rfl (unopened s flags path)
  | read s offset requestedSize =>
    cases known : x.sessions.lookup s with
    | none => exact congrArg Prod.snd (read_unknown known offset requestedSize)
    | some sess => exact congrArg Prod.snd (read_known known offset requestedSize)
  | write s offset data => exact absurd rfl (unwritten s offset data)
  | commit s data => exact congrArg Prod.snd (commit_run data)
  | close s => exact absurd rfl (unclosed s)
  | sessionStat s => exact congrArg Prod.snd sessionStat_run
  | expire s => exact congrArg Prod.snd expire_run

theorem method_frame {call : HandlerCall} {t : SessionId} (garbage : Buffer) (x : ExampleBlobHandler)
    (other : call.session? ≠ some t) :
    (method garbage call x).2.sessions.lookup t = x.sessions.lookup t := by
  have idle := @method_idle call garbage x
  cases call with
  | «open» s flags path =>
    have apart : t ≠ s := fun same => other (congrArg some same.symm)
    rw [method, open_run]
    split
    · exact (Table.lookup_insert_if ..).trans (if_neg apart)
    · rfl
  | write s offset data =>
    have apart : t ≠ s := fun same => other (congrArg some same.symm)
    cases known : x.sessions.lookup s with
    | none => rw [method, write_unknown known]
    | some sess =>
      by_cases fits : offset.toNat < kBufferSize ∧ offset.toNat + data.length ≤ kBufferSize
      · obtain ⟨buffer, _, run⟩ := write_fits known fits.1 fits.2
        rw [method, run]
        exact (Table.lookup_insert_if ..).trans (if_neg apart)
      · rw [method, write_exceeds known fits]
  | close s =>
    have apart : t ≠ s := fun same => other (congrArg some same.symm)
    rw [method, close_run]
    split
    · exact (Table.lookup_erase_if ..).trans (if_neg apart)
    · rfl
  | _ =>
    have same := idle nofun nofun nofun
    exact congrArg (fun y : ExampleBlobHandler => y.sessions.lookup t) same

/-- What a method on an open session does and answers is a matter of that session alone. -/
theorem method_local {call : HandlerCall} {y : ExampleBlobHandler} (garbage other : Buffer)
    (named : call.session? = some s) (unopened : ∀ flags path, call ≠ .open s flags path)
    (same : x.sessions.lookup s = y.sessions.lookup s) :
    (method garbage call x).1 = (method other call y).1 ∧
      (method garbage call x).2.sessions.lookup s = (method other call y).2.sessions.lookup s := by
  cases call with
  | «open» t flags path => cases named; exact absurd rfl (unopened flags path)
  | read t offset size =>
    cases named
    simp only [method]
    cases known : x.sessions.lookup s with
    | none => rw [read_unknown known, read_unknown (same.symm.trans known)]; exact ⟨rfl, same⟩
    | some sess => rw [read_known known, read_known (same.symm.trans known)]; exact ⟨rfl, same⟩
  | write t offset data =>
    cases named
    simp only [method]
    cases known : x.sessions.lookup s with
    | none => rw [write_unknown known, write_unknown (same.symm.trans known)]; exact ⟨rfl, same⟩
    | some sess =>
      have also := same.symm.trans known
      by_cases fits : offset.toNat < kBufferSize ∧ offset.toNat + data.length ≤ kBufferSize
      · obtain ⟨⟨_, _⟩, rfl, run⟩ := write_fits known fits.1 fits.2
        obtain ⟨⟨_, _⟩, rfl, again⟩ := write_fits also fits.1 fits.2
        rw [run, again]
        exact ⟨rfl, (Finmap.lookup_insert x.sessions).trans (Finmap.lookup_insert y.sessions).symm⟩
      · rw [write_exceeds known fits, write_exceeds also fits]
        exact ⟨rfl, same⟩
  | writeMeta t offset data => exact ⟨rfl, same⟩
  | commit t data =>
    simp only [method]
    rw [commit_run, commit_run]
    exact ⟨rfl, same⟩
  | close t =>
    cases named
    simp only [method]
    rw [close_run, close_run, same]
    split
    · exact ⟨rfl, (Finmap.lookup_erase s x.sessions).trans (Finmap.lookup_erase s y.sessions).symm⟩
    · exact ⟨rfl, same⟩
  | sessionStat t =>
    cases named
    simp only [method]
    rw [sessionStat_run, sessionStat_run, same]
    exact ⟨rfl, rfl⟩
  | expire t =>
    simp only [method]
    rw [expire_run, expire_run]
    exact ⟨rfl, same⟩
  | _ => cases named

end ExampleBlobHandler

end PhosphorBlobs
