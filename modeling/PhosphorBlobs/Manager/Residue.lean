import PhosphorBlobs.Manager.Allocation

/-! Entries of openFiles. A delete reads its count through operator[], which leaves a zero
entry for a path that is not open. No other request leaves one. -/
namespace PhosphorBlobs

variable {H : Type} [DecidableEq H]

/-- The open-file table holds the paths of the open sessions and nothing else. -/
structure Exact (m : BlobManager H) : Prop where
  keys : ∀ path, path ∈ m.openFiles ↔
    ∃ s item, m.sessions.lookup s = some item ∧ item.blobId = path
  fewer : m.openFiles.keys.card ≤ m.sessions.keys.card
  empty : m.sessions = ∅ → m.openFiles = ∅

def Trim (m : BlobManager H) : Prop := ∀ path, m.openFiles.lookup path ≠ some 0

theorem Tables.on_path_iff {m : BlobManager H} (tables : Tables m) (path : Path) :
    (∃ s item, m.sessions.lookup s = some item ∧ item.blobId = path) ↔ m.openCount path ≠ 0 := by
  constructor
  · rintro ⟨s, item, known, rfl⟩ zero
    have pos := tables.count_pos known
    omega
  · intro counted
    have positive : m.openCount path > 0 := by
      have low := (tables.count_le path).1
      omega
    by_contra nobody
    refine (tables.count_zero_iff path).mpr ?_ positive
    intro s item known same
    exact nobody ⟨s, item, known, same⟩

theorem Tables.exact_iff {m : BlobManager H} (tables : Tables m) : Exact m ↔ Trim m := by
  constructor
  · intro exact path zero
    have inside := (exact.keys path).mp (Finmap.mem_of_lookup_eq_some zero)
    refine (tables.on_path_iff path).mp inside ?_
    rw [BlobManager.openCount, zero]
    rfl
  · intro trim
    have keys : ∀ path, path ∈ m.openFiles ↔
        ∃ s item, m.sessions.lookup s = some item ∧ item.blobId = path := by
      intro path
      rw [tables.on_path_iff, BlobManager.openCount, ← Finmap.lookup_isSome]
      have other := trim path
      cases known : m.openFiles.lookup path with
      | none => simp
      | some n =>
        rw [known] at other
        simpa using other
    refine ⟨keys, Table.card_keys_le _ _ SessionInfo.blobId fun path inside => (keys path).mp inside, ?_⟩
    intro idle
    apply Finmap.ext_lookup
    intro path
    rw [Finmap.lookup_empty, Finmap.lookup_eq_none, keys]
    rintro ⟨s, item, known, _⟩
    rw [idle] at known
    cases known

theorem Trim.erase {m : BlobManager H} (trim : Trim m) (h : H) (s : SessionId) :
    Trim (m.eraseSession h s) := by
  intro path
  unfold BlobManager.eraseSession
  split
  · exact trim path
  · rename_i item known
    have lowered : ∀ q, q ≠ item.blobId →
        (m.openFiles.update 0 (· - 1) item.blobId).lookup q = m.openFiles.lookup q := by
      intro q other
      rw [Table.lookup_update, if_neg other]
    simp only
    split
    · rw [Table.lookup_erase_if]
      split
      · exact nofun
      · rename_i other
        rw [lowered path other]
        exact trim path
    · rename_i left
      by_cases same : path = item.blobId
      · intro zero
        rw [same] at zero
        exact left (congrArg (·.getD 0) zero)
      · rw [lowered path same]
        exact trim path

theorem Trim.sweep {m : BlobManager H} (trim : Trim m) (h : H) (answered : List (SessionId × Bool)) :
    Trim (m.sweep h answered) := by
  induction answered generalizing m with
  | nil => exact trim
  | cons a rest ih =>
    obtain ⟨s, expired⟩ := a
    cases expired with
    | true => exact ih (trim.erase h s)
    | false => exact ih trim

theorem Trim.associate {m : BlobManager H} (trim : Trim m) {now : Time} {h : H} {s : SessionId}
    {flags : UInt16} {path : Path} (tables : Tables (m.associate now h s flags path)) :
    Trim (m.associate now h s flags path) := by
  intro q zero
  by_cases same : q = path
  · have known : (m.associate now h s flags path).sessions.lookup s =
        some ⟨path, some h, flags, now⟩ := Finmap.lookup_insert _
    have pos := tables.count_pos known
    rw [same] at zero
    rw [BlobManager.openCount, zero] at pos
    exact absurd pos (by decide)
  · refine trim q ?_
    rw [← zero]
    exact ((Table.lookup_update 0 (· + 1) path q m.openFiles).trans (if_neg same)).symm

section Runs

variable {A : Answers H} {w : World H}

theorem open_trim {v : World H} {clock : Clock} {flags : UInt16} {path : Path} {session : Bool}
    {answer : BlobManager.Opened} (trim : Trim w.manager) (tables : Tables v.manager)
    (outcome : BlobManager.OpenOutcome A w clock flags path session answer v) : Trim v.manager := by
  have spent : Trim (BlobManager.getSession session w.manager).2 := by
    rw [BlobManager.getSession_keeps]
    exact trim
  cases outcome with
  | noHandler routed => exact trim
  | noSession routed exhausted => exact spent
  | noFlags routed issued unset => exact spent
  | @tried probes h id answered accepted routed issued set once exact =>
    have swept := spent.sweep h answered
    cases accepted with
    | true => exact swept.associate tables
    | false => exact swept

/-- A delete that finds a handler names the path of an open session. -/
def Tidy (A : Answers H) (w : World H) (request : Clock × ManagerCall H) : Prop :=
  ∀ path, request.2 = .deleteBlob path → (∃ h, (BlobManager.getHandler A path w).1 = some h) →
    ∃ s item, w.manager.sessions.lookup s = some item ∧ item.blobId = path

theorem Trim.subscript_iff {m : BlobManager H} (trim : Trim m) (tables : Tables m) (path : Path) :
    Trim { m with openFiles := (m.openFiles.subscript 0 path).2 } ↔
      ∃ s item, m.sessions.lookup s = some item ∧ item.blobId = path := by
  rw [tables.on_path_iff, BlobManager.openCount, Table.subscript]
  cases known : m.openFiles.lookup path with
  | none =>
    constructor
    · intro after
      exact absurd (Finmap.lookup_insert _) (after path)
    · intro counted
      exact absurd rfl counted
  | some n =>
    have other := trim path
    rw [known] at other
    exact ⟨fun _ zero => other (congrArg some zero), fun _ => trim⟩

theorem trim_step (sound : Sound w) (trim : Trim w.manager) (request : Clock × ManagerCall H) :
    Trim (step A w request).2.manager ↔ Tidy A w request := by
  obtain ⟨clock, call⟩ := request
  have tables := (sound.step (A := A) (clock, call)).tables
  rcases call.kinds with ⟨s, required, forwarded, shape⟩ | ⟨flags, path, session, rfl⟩ |
    ⟨free, unopened⟩
  · refine iff_of_true ?_ ?_
    · rcases session_step (A := A) sound clock shape with ⟨item, h, reply, _, stepped⟩ |
        ⟨refusal, _, stepped⟩
      · rw [stepped]
        unfold BlobManager.settled
        split
        · exact Trim.erase (m := w.manager.touch clock.first s item) trim h s
        · exact trim
      · rw [stepped]
        exact trim
    · rintro path rfl
      cases shape
  · obtain ⟨answer, calls, v, stepped, _, outcome⟩ := open_step (A := A) sound clock flags path session
    rw [stepped] at tables ⊢
    exact iff_of_true (open_trim trim tables outcome) (fun _ => nofun)
  · by_cases found : ∃ path h, call = .deleteBlob path ∧ (BlobManager.getHandler A path w).1 = some h
    · obtain ⟨path, h, rfl, found⟩ := found
      have reached : (step A w (clock, .deleteBlob path)).2.manager = _ :=
        deleteBlob_manager A clock found
      rw [reached, trim.subscript_iff sound.tables path]
      constructor
      · rintro opened _ ⟨⟩ _
        exact opened
      · intro tidy
        exact tidy path rfl ⟨h, found⟩
    · rcases quiet_manager A clock free unopened w with ⟨handlers, ids, same⟩ | delete
      · have reached : (step A w (clock, call)).2.manager = _ := same
        rw [reached]
        exact iff_of_true trim fun path delete ⟨h, routed⟩ => absurd ⟨path, h, delete, routed⟩ found
      · exact absurd delete found

end Runs

/-- The open-file table stays exact for as long as every delete that finds a handler names a
path that is open. The first one that does not leaves an entry without a session. -/
theorem open_files_exact_iff (A : Answers H) (sessionTimeout : Time) (next : UInt16)
    (requests : List (Clock × ManagerCall H)) :
    (∀ past more, requests = past ++ more → Exact (history A sessionTimeout next past).2.manager) ↔
      ∀ past request more, requests = past ++ request :: more →
        Tidy A (history A sessionTimeout next past).2 request := by
  have sound := history_sound A sessionTimeout next
  have trimmed := Machine.run_rule_iff (step A) (P := fun w => Trim w.manager) (R := Tidy A)
    (s := World.fresh sessionTimeout next) (fun _ => nofun)
    (fun past request trim => trim_step (sound past) trim request) requests
  refine Iff.trans ?_ trimmed
  exact forall₃_congr fun past more split => (sound past).tables.exact_iff

theorem deleted_path_stays :
    ¬ ∀ (A : Answers Unit) (sessionTimeout : Time) (next : UInt16)
      (requests : List (Clock × ManagerCall Unit)),
      Exact (history A sessionTimeout next requests).2.manager := by
  intro exact
  have after := exact willing 60 0
    [(⟨0, 0⟩, .registerHandler (some ())), (⟨0, 0⟩, .deleteBlob [97])]
  have entry : (history willing 60 0 [(⟨0, 0⟩, .registerHandler (some ())),
      (⟨0, 0⟩, .deleteBlob [97])]).2.manager.openFiles.lookup [97] = some 0 := by rfl
  obtain ⟨s, item, known, _⟩ := (after.keys [97]).mp (Finmap.mem_of_lookup_eq_some entry)
  cases known

section Residue

def InUse (m : BlobManager H) (path : Path) : Prop :=
  ∃ s item, m.sessions.lookup s = some item ∧ item.blobId = path

omit [DecidableEq H] in
theorem count_residue {m : BlobManager H} {path : Path}
    (residue : m.openFiles.lookup path = some 0) : m.openCount path = 0 := by
  rw [BlobManager.openCount, residue]
  rfl

theorem Tables.listed_iff {m : BlobManager H} (tables : Tables m) (path : Path) :
    path ∈ m.openFiles ↔ InUse m path ∨ m.openFiles.lookup path = some 0 := by
  rw [InUse, tables.on_path_iff, BlobManager.openCount, ← Finmap.lookup_isSome]
  cases m.openFiles.lookup path with
  | none => simp
  | some n =>
    by_cases zero : n = 0
    · simp [zero]
    · simp [zero]

theorem Tables.unused_iff {m : BlobManager H} (tables : Tables m) (path : Path) :
    ¬ InUse m path ↔ m.openCount path = 0 := by
  rw [InUse, tables.on_path_iff, not_not]

omit [DecidableEq H] in
theorem residue_subscript (m : BlobManager H) (path q : Path) :
    (m.openFiles.subscript 0 path).2.lookup q = some 0 ↔
      m.openCount q = 0 ∧ (m.openFiles.lookup q = some 0 ∨ q = path) := by
  rw [Table.lookup_subscript]
  by_cases same : q = path
  · rw [if_pos same, ← same, Option.some.injEq, BlobManager.openCount]
    exact ⟨fun zero => ⟨zero, .inr rfl⟩, And.left⟩
  · rw [if_neg same, or_iff_left same]
    exact ⟨fun zero => ⟨count_residue zero, zero⟩, And.right⟩

theorem Tables.residue_erase {m : BlobManager H} (tables : Tables m) {s : SessionId}
    {item : SessionInfo H} (known : m.sessions.lookup s = some item) (h : H) (path : Path) :
    (m.eraseSession h s).openFiles.lookup path = some 0 ↔ m.openFiles.lookup path = some 0 := by
  by_cases same : path = item.blobId
  · have positive := tables.count_pos known
    refine iff_of_false ?_ ?_
    · simp only [BlobManager.eraseSession, known]
      split
      · rw [Table.lookup_erase_if, if_pos same]
        rintro ⟨⟩
      · rename_i left
        intro zero
        rw [same] at zero
        exact left (congrArg (·.getD 0) zero)
    · intro zero
      rw [← same, count_residue zero] at positive
      exact absurd positive (by decide)
  · have kept : (m.openFiles.update 0 (· - 1) item.blobId).lookup path = m.openFiles.lookup path := by
      rw [Table.lookup_update, if_neg same]
    simp only [BlobManager.eraseSession, known]
    split
    · rw [Table.lookup_erase_if, if_neg same, kept]
    · rw [kept]

theorem Tables.residue_sweep {m : BlobManager H} (tables : Tables m) (h : H)
    (answered : List (SessionId × Bool)) (once : (answered.map (·.1)).Nodup)
    (owned : ∀ s ∈ answered.map (·.1), s ∈ m.heldBy h) (path : Path) :
    (m.sweep h answered).openFiles.lookup path = some 0 ↔ m.openFiles.lookup path = some 0 := by
  induction answered generalizing m with
  | nil => exact Iff.rfl
  | cons a rest ih =>
    obtain ⟨s, expired⟩ := a
    obtain ⟨fresh, later⟩ := List.nodup_cons.mp once
    have others : ∀ t ∈ rest.map (·.1), t ∈ m.heldBy h :=
      fun t inside => owned t (List.mem_cons_of_mem _ inside)
    cases expired with
    | false => exact ih tables later others
    | true =>
      obtain ⟨item, known, owner⟩ := (tables.held h s).mp (owned s List.mem_cons_self)
      refine (ih (tables.erase known owner) later fun t inside => ?_).trans
        (tables.residue_erase known h path)
      rw [BlobManager.eraseSession_held known, if_pos rfl, OrderedSet.mem_erase]
      refine ⟨?_, others t inside⟩
      rintro rfl
      exact fresh inside

theorem residue_associate {m : BlobManager H} {now : Time} {h : H} {s : SessionId} {flags : UInt16}
    {path : Path} (tables : Tables (m.associate now h s flags path)) (q : Path) :
    (m.associate now h s flags path).openFiles.lookup q = some 0 ↔
      (m.associate now h s flags path).openCount q = 0 ∧ m.openFiles.lookup q = some 0 := by
  by_cases same : q = path
  · have known : (m.associate now h s flags path).sessions.lookup s =
        some ⟨path, some h, flags, now⟩ := Finmap.lookup_insert _
    have counted : (m.associate now h s flags path).openCount q ≠ 0 := by
      have positive : 1 ≤ (m.associate now h s flags path).openCount path := tables.count_pos known
      rw [same]
      omega
    exact iff_of_false (fun zero => counted (count_residue zero)) fun zero => counted zero.1
  · have kept : (m.associate now h s flags path).openFiles.lookup q = m.openFiles.lookup q :=
      (Table.lookup_update 0 (· + 1) path q m.openFiles).trans (if_neg same)
    rw [kept]
    refine ⟨fun zero => ⟨?_, zero⟩, And.right⟩
    exact count_residue (kept.trans zero)

def Deletes (A : Answers H) (path : Path) (w : World H) (request : Clock × ManagerCall H) : Prop :=
  request.2 = .deleteBlob path ∧ ∃ h, (BlobManager.getHandler A path w).1 = some h

variable {A : Answers H} {w : World H}

theorem open_residue {v : World H} {clock : Clock} {flags : UInt16} {path : Path} {session : Bool}
    {answer : BlobManager.Opened} (before : Tables w.manager) (tables : Tables v.manager)
    (outcome : BlobManager.OpenOutcome A w clock flags path session answer v) (q : Path) :
    v.manager.openFiles.lookup q = some 0 ↔
      v.manager.openCount q = 0 ∧ w.manager.openFiles.lookup q = some 0 := by
  have guarded : ∀ {m : BlobManager H}, (m.openFiles.lookup q = some 0 ↔
      w.manager.openFiles.lookup q = some 0) →
      (m.openFiles.lookup q = some 0 ↔ m.openCount q = 0 ∧ w.manager.openFiles.lookup q = some 0) :=
    fun same => ⟨fun zero => ⟨count_residue zero, same.mp zero⟩, fun zero => same.mpr zero.2⟩
  have spent := BlobManager.getSession_keeps session w.manager
  cases outcome with
  | noHandler routed => exact guarded Iff.rfl
  | noSession routed exhausted =>
    rw [spent]
    exact guarded Iff.rfl
  | noFlags routed issued unset =>
    rw [spent]
    exact guarded Iff.rfl
  | @tried probes h id answered accepted routed issued set once exact =>
    have swept := (before.issued session).residue_sweep h answered once (fun s inside => by
      rw [spent]
      exact ((exact s).mp inside).1) q
    have files : (BlobManager.getSession session w.manager).2.openFiles = w.manager.openFiles := by
      rw [spent]
    rw [files] at swept
    cases accepted with
    | true => rw [← swept]; exact residue_associate tables q
    | false => exact guarded swept

theorem step_residue (sound : Sound w) (request : Clock × ManagerCall H) (q : Path) :
    (step A w request).2.manager.openFiles.lookup q = some 0 ↔
      (step A w request).2.manager.openCount q = 0 ∧
        (w.manager.openFiles.lookup q = some 0 ∨ Deletes A q w request) := by
  obtain ⟨clock, call⟩ := request
  have tables := (sound.step (A := A) (clock, call)).tables
  have guarded : ∀ {m : BlobManager H}, (m.openFiles.lookup q = some 0 ↔
      w.manager.openFiles.lookup q = some 0) → ¬ Deletes A q w (clock, call) →
      (m.openFiles.lookup q = some 0 ↔ m.openCount q = 0 ∧
        (w.manager.openFiles.lookup q = some 0 ∨ Deletes A q w (clock, call))) := by
    intro m same other
    rw [or_iff_left other, ← same]
    exact ⟨fun zero => ⟨count_residue zero, zero⟩, And.right⟩
  rcases call.kinds with ⟨s, required, forwarded, shape⟩ | ⟨flags, path, session, rfl⟩ |
    ⟨free, unopened⟩
  · have other : ¬ Deletes A q w (clock, call) := by
      rintro ⟨rfl, _⟩
      cases shape
    rcases session_step (A := A) sound clock shape with ⟨item, h, reply, serves, stepped⟩ |
      ⟨refusal, _, stepped⟩
    · rw [stepped]
      refine guarded ?_ other
      unfold BlobManager.settled
      split
      · have known : (w.manager.touch clock.first s item).sessions.lookup s =
          some { item with lastActionTime := clock.first } := Finmap.lookup_insert _
        exact (sound.tables.touch serves.known clock.first).residue_erase known h q
      · exact Iff.rfl
    · rw [stepped]
      exact guarded Iff.rfl other
  · have other : ¬ Deletes A q w (clock, .open flags path session) := nofun
    obtain ⟨answer, calls, v, stepped, _, outcome⟩ := open_step (A := A) sound clock flags path session
    rw [stepped] at tables ⊢
    rw [or_iff_left other]
    exact open_residue sound.tables tables outcome q
  · have reached : (step A w (clock, call)).2 = (blobManager A clock call w).2 := rfl
    rw [reached]
    by_cases found : ∃ path h, call = .deleteBlob path ∧ (BlobManager.getHandler A path w).1 = some h
    · obtain ⟨path, h, rfl, found⟩ := found
      rw [deleteBlob_manager A clock found, residue_subscript, BlobManager.openCount,
        BlobManager.openCount, Table.getD_subscript]
      refine and_congr_right fun _ => or_congr_right ⟨?_, ?_⟩
      · rintro rfl
        exact ⟨rfl, h, found⟩
      · rintro ⟨⟨⟩, _⟩
        rfl
    · rcases quiet_manager A clock free unopened w with ⟨handlers, ids, same⟩ | delete
      · rw [same]
        exact guarded Iff.rfl fun delete => found ⟨q, delete.2.choose, delete.1, delete.2.choose_spec⟩
      · exact absurd delete found

/-- What a path leaves in the table: it is listed while a session is open on it, and from a
delete that reached a handler on, for as long as no session was open on it since. -/
theorem open_files_residue_iff (A : Answers H) (sessionTimeout : Time) (next : UInt16)
    (requests : List (Clock × ManagerCall H)) (path : Path) :
    path ∈ (history A sessionTimeout next requests).2.manager.openFiles ↔
      InUse (history A sessionTimeout next requests).2.manager path ∨
      ∃ past request more, requests = past ++ request :: more ∧
        Deletes A path (history A sessionTimeout next past).2 request ∧
        ∀ front back, more = front ++ back →
          ¬ InUse (history A sessionTimeout next (past ++ request :: front)).2.manager path := by
  have sound := history_sound A sessionTimeout next
  rw [(sound requests).tables.listed_iff]
  refine or_congr_right ?_
  refine Machine.run_since_iff (step A) (P := fun w => w.manager.openFiles.lookup path = some 0)
    (K := fun w => ¬ InUse w.manager path) (S := Deletes A path)
    (s := World.fresh sessionTimeout next) nofun (fun past request => ?_) requests
  have after := ((sound past).step (A := A) request).tables
  exact (step_residue (sound past) request path).trans (and_congr_left' (after.unused_iff path).symm)

end Residue

end PhosphorBlobs
