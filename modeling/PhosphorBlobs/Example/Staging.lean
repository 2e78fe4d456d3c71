import PhosphorBlobs.Example.Sessions

/-! The staging area of an example session. The buffer in the handler is what the accepted
writes of the session make of the bytes that stood there when it was opened, and the requests
on it answer accordingly. -/
namespace PhosphorBlobs

open ExampleBlobHandler

variable {H : Type} [DecidableEq H]

/-- An accepted open empties the staging area of its session, an accepted write adds to it. -/
def stage (h : H) (s : SessionId) (blocks : List (Overlay.Block UInt8)) :
    Event H → List (Overlay.Block UInt8)
  | ⟨g, .open t _ _, true⟩ => if g = h ∧ t = s then [] else blocks
  | ⟨g, .write t offset data, true⟩ =>
    if g = h ∧ t = s then blocks ++ [⟨offset.toNat, data⟩] else blocks
  | _ => blocks

def stagedBlocks (h : H) (s : SessionId) (calls : List (Event H)) : List (Overlay.Block UInt8) :=
  calls.foldl (stage h s) []

def opensSession (h : H) (s : SessionId) : Event H → Bool
  | ⟨g, .open t _ _, true⟩ => decide (g = h ∧ t = s)
  | _ => false

/-- What the latest accepted open of the session found in the memory of its buffer. -/
def foundBuffer (h : H) (stack : Nat → Buffer) (s : SessionId) (calls : List (Event H)) : Buffer :=
  Object.replay (opensSession h s) stack (fun garbage _ _ => garbage) (stack 0) calls

theorem stage_open (h : H) (s t : SessionId) (flags : UInt16) (path : Path)
    (blocks : List (Overlay.Block UInt8)) :
    stage h s blocks ⟨h, .open t flags path, true⟩ = if t = s then [] else blocks := by
  simp [stage]

theorem stage_write (h : H) (s t : SessionId) (offset : UInt32) (data : List UInt8)
    (blocks : List (Overlay.Block UInt8)) : stage h s blocks ⟨h, .write t offset data, true⟩ =
      if t = s then blocks ++ [⟨offset.toNat, data⟩] else blocks := by
  simp [stage]

theorem stagedBlocks_concat (h : H) (s : SessionId) (past : List (Event H)) (e : Event H) :
    stagedBlocks h s (past ++ [e]) = stage h s (stagedBlocks h s past) e := by
  rw [stagedBlocks, List.foldl_append]
  rfl

theorem foundBuffer_concat (h : H) (stack : Nat → Buffer) (s : SessionId) (past : List (Event H))
    (e : Event H) : foundBuffer h stack s (past ++ [e]) =
      if opensSession h s e then stack past.length else foundBuffer h stack s past :=
  Object.replay_concat ..

theorem foundBuffer_split {h : H} {stack : Nat → Buffer} {s : SessionId} {before after : List (Event H)}
    {e : Event H} (opens : opensSession h s e = true) (later : ∀ f ∈ after, opensSession h s f = false) :
    foundBuffer h stack s (before ++ e :: after) = stack before.length := by
  induction after using List.reverseRecOn with
  | nil => rw [foundBuffer_concat, if_pos opens]
  | append_singleton front f ih =>
    have last := later f (by simp)
    have split : before ++ e :: (front ++ [f]) = before ++ e :: front ++ [f] := by simp
    rw [split, foundBuffer_concat, last, if_neg Bool.false_ne_true]
    exact ih fun g inside => later g (List.mem_append_left _ inside)

/-- The session in the handler holds what its blocks make of what its open found. -/
structure Stages (sess : ExampleBlob) (base : Buffer) (blocks : List (Overlay.Block UInt8)) : Prop where
  fit : ∀ block ∈ blocks, block.stop ≤ kBufferSize
  length : sess.length = UInt32.ofNat (Overlay.extent blocks)
  state : sess.state = StateFlags.open_read ||| StateFlags.open_write
  buffer : sess.buffer.bytes = Overlay.writeAll base.bytes blocks

theorem Stages.new (s flags : UInt16) (garbage : Buffer) :
    Stages (.new s flags garbage) garbage [] :=
  ⟨nofun, rfl, rfl, rfl⟩

theorem Stages.written {sess : ExampleBlob} {base : Buffer} {blocks : List (Overlay.Block UInt8)}
    (stages : Stages sess base blocks) {buffer : Buffer} {offset : Nat} {data : List UInt8}
    (room : offset + data.length ≤ kBufferSize)
    (bytes : buffer.bytes = Overlay.write sess.buffer.bytes ⟨offset, data⟩) :
    Stages (written sess buffer (offset + data.length)) base (blocks ++ [⟨offset, data⟩]) := by
  refine ⟨?_, ?_, stages.state, ?_⟩
  · intro block inside
    rcases List.mem_append.mp inside with earlier | last
    · exact stages.fit block earlier
    · rw [List.mem_singleton.mp last]
      exact room
  · have small : Overlay.extent blocks < 2 ^ 32 := by
      have most := Overlay.extent_le stages.fit
      unfold kBufferSize at most
      omega
    have length : sess.length.toNat = Overlay.extent blocks := by
      rw [stages.length, UInt32.toNat_ofNat_of_lt' small]
    rw [Overlay.extent_concat, ← length]
    rfl
  · rw [Overlay.writeAll_concat, ← stages.buffer]
    exact bytes

section Record

variable {A : Answers H} {h : H} {stack : Nat → Buffer} {past : List (Event H)}

def AllStaged (h : H) (stack : Nat → Buffer) (x : ExampleBlobHandler) (calls : List (Event H)) : Prop :=
  ∀ s sess, x.sessions.lookup s = some sess →
    Stages sess (foundBuffer h stack s calls) (stagedBlocks h s calls)

theorem stage_foreign {e : Event H} (foreign : e.handler ≠ h) (s : SessionId)
    (blocks : List (Overlay.Block UInt8)) : stage h s blocks e = blocks := by
  obtain ⟨g, call, answer⟩ := e
  have apart : ∀ t, ¬ (g = h ∧ t = s) := fun t both => foreign both.1
  cases call with
  | «open» t flags path | write t offset data =>
    cases answer with
    | true => exact if_neg (apart t)
    | false => rfl
  | _ => rfl

theorem opensSession_foreign {e : Event H} (foreign : e.handler ≠ h) (s : SessionId) :
    opensSession h s e = false := by
  obtain ⟨g, call, answer⟩ := e
  cases call with
  | «open» t flags path =>
    cases answer with
    | true => exact decide_eq_false fun both => foreign both.1
    | false => rfl
  | _ => rfl

theorem AllStaged.same {x : ExampleBlobHandler} (staged : AllStaged h stack x past) {e : Event H}
    (unopened : ∀ s, opensSession h s e = false)
    (untouched : ∀ s blocks, stage h s blocks e = blocks) : AllStaged h stack x (past ++ [e]) := by
  intro s sess known
  rw [stagedBlocks_concat, untouched, foundBuffer_concat, unopened, if_neg Bool.false_ne_true]
  exact staged s sess known

theorem open_staged {t : SessionId} {flags : UInt16} {path : Path} {answer : Bool}
    (staged : AllStaged h stack (after h stack past) past)
    (answers : (method (stack past.length) (.open t flags path) (after h stack past)).1 = .ok answer) :
    AllStaged h stack (method (stack past.length) (.open t flags path) (after h stack past)).2
      (past ++ [⟨h, .open t flags path, answer⟩]) := by
  rw [method, open_run] at answers ⊢
  split at answers
  · rename_i accepted
    cases Except.ok.inj answers
    rw [if_pos accepted]
    intro s sess known
    have opens : opensSession h s (⟨h, .open t flags path, true⟩ : Event H) = decide (t = s) := by
      simp [opensSession]
    rw [stagedBlocks_concat, stage_open, foundBuffer_concat, opens]
    rw [Table.lookup_insert_if] at known
    by_cases same : s = t
    · rw [if_pos same] at known
      cases known
      rw [if_pos same.symm, if_pos (decide_eq_true same.symm)]
      exact .new t flags _
    · rw [if_neg same] at known
      rw [if_neg (Ne.symm same), if_neg (by simpa using Ne.symm same)]
      exact staged s sess known
  · rename_i refused
    cases Except.ok.inj answers
    rw [if_neg refused]
    exact staged.same (fun _ => rfl) fun _ _ => rfl

theorem write_staged {t : SessionId} {offset : UInt32} {data : List UInt8} {answer : Bool}
    (staged : AllStaged h stack (after h stack past) past)
    (answers : (method (stack past.length) (.write t offset data) (after h stack past)).1 = .ok answer) :
    AllStaged h stack (method (stack past.length) (.write t offset data) (after h stack past)).2
      (past ++ [⟨h, .write t offset data, answer⟩]) := by
  have unchanged : method (stack past.length) (.write t offset data) (after h stack past) =
      (.ok false, after h stack past) →
      AllStaged h stack (method (stack past.length) (.write t offset data) (after h stack past)).2
        (past ++ [⟨h, .write t offset data, answer⟩]) := by
    intro run
    rw [run] at answers ⊢
    cases Except.ok.inj answers
    exact staged.same (fun _ => rfl) fun _ _ => rfl
  cases known : (after h stack past).sessions.lookup t with
  | none => exact unchanged (write_unknown known offset data)
  | some sess =>
    by_cases fits : offset.toNat < kBufferSize ∧ offset.toNat + data.length ≤ kBufferSize
    · obtain ⟨buffer, bytes, written⟩ := write_fits known fits.1 fits.2
      have run : method (stack past.length) (.write t offset data) (after h stack past) = _ := written
      rw [run] at answers ⊢
      cases Except.ok.inj answers
      intro s other there
      rw [stagedBlocks_concat, stage_write, foundBuffer_concat]
      rw [Table.lookup_insert_if] at there
      by_cases same : s = t
      · subst same
        rw [if_pos rfl] at there
        cases there
        rw [if_pos rfl]
        exact (staged s sess known).written fits.2 bytes
      · rw [if_neg same] at there
        rw [if_neg (Ne.symm same)]
        exact staged s other there
    · exact unchanged (write_exceeds known fits)

theorem close_staged {t : SessionId} (staged : AllStaged h stack (after h stack past) past) (closed : Bool) :
    AllStaged h stack (method (stack past.length) (.close t) (after h stack past)).2
      (past ++ [⟨h, .close t, closed⟩]) := by
  rw [method, close_run]
  split
  · intro s sess known
    rw [Table.lookup_erase_if] at known
    split at known
    · cases known
    · rw [stagedBlocks_concat, foundBuffer_concat]
      exact staged s sess known
  · exact staged.same (fun _ => rfl) fun _ _ => rfl

theorem record_staged (deployed : Deployed A h stack) {calls : List (Event H)}
    (genuine : Genuine A calls) : AllStaged h stack (after h stack calls) calls := by
  induction genuine with
  | nil => exact fun s sess known => by cases known
  | @snoc past e before said ih =>
    by_cases own : e.handler = h
    · obtain ⟨g, call, answer⟩ := e
      cases own
      have answers : (method (stack past.length) call (after g stack past)).1 = .ok answer := by
        rw [deployed, ← show answer = A g call past from said]
      rw [after_own]
      have idle : (method (stack past.length) call (after g stack past)).2 = after g stack past →
          (∀ s, opensSession g s ⟨g, call, answer⟩ = false) →
          (∀ s blocks, stage g s blocks ⟨g, call, answer⟩ = blocks) →
          AllStaged g stack (method (stack past.length) call (after g stack past)).2
            (past ++ [⟨g, call, answer⟩]) := by
        intro same unopened untouched
        rw [same]
        exact ih.same unopened untouched
      cases call with
      | «open» t flags path => exact open_staged ih answers
      | write t offset data => exact write_staged ih answers
      | close t => exact close_staged ih answer
      | _ => exact idle (method_idle _ _ nofun nofun nofun) (fun _ => rfl) fun _ _ => rfl
    · rw [after_foreign own]
      exact ih.same (opensSession_foreign own) (stage_foreign own)

end Record

section Serving

variable {A : Answers H} {h : H} {stack : Nat → Buffer} {s : SessionId} {b : Binding H} {w : World H}

structure Serving (A : Answers H) (h : H) (s : SessionId) (b : Binding H) (w : World H) : Prop where
  reached : ∃ sessionTimeout next requests, w = (history A sessionTimeout next requests).2
  bound : w.manager.bound s = some b
  own : b.handler = h

theorem Serving.sound (serving : Serving A h s b w) : Sound w := by
  obtain ⟨sessionTimeout, next, requests, rfl⟩ := serving.reached
  exact history_sound A sessionTimeout next requests

theorem Serving.serves (deployed : Deployed A h stack) (serving : Serving A h s b w)
    (required : UInt16) (allowed : b.flags &&& required ≠ 0) :
    ∃ item, w.manager.Serves s required item h := by
  obtain ⟨⟨sessionTimeout, next, requests, rfl⟩, bound, own⟩ := serving
  exact (bound_held deployed bound own).2 required allowed

theorem Serving.holds (deployed : Deployed A h stack) (serving : Serving A h s b w) :
    ∃ sess, (after h stack w.calls).sessions.lookup s = some sess ∧
      Stages sess (foundBuffer h stack s w.calls) (stagedBlocks h s w.calls) := by
  obtain ⟨⟨sessionTimeout, next, requests, rfl⟩, bound, own⟩ := serving
  obtain ⟨⟨sess, known, _⟩, _⟩ := bound_held deployed bound own
  exact ⟨sess, known,
    record_staged deployed (history_genuine A sessionTimeout next requests) s sess known⟩

theorem Serving.reads (deployed : Deployed A h stack) (serving : Serving A h s b w)
    {sess : ExampleBlob} (known : (after h stack w.calls).sessions.lookup s = some sess)
    (readable : b.flags &&& OpenFlags.read ≠ 0) (clock : Clock) (offset size : UInt32) :
    (blobManager A clock (.read s offset size) w).1 = staged sess offset.toNat size.toNat := by
  obtain ⟨item, serves⟩ := serving.serves deployed OpenFlags.read readable
  have run : blobManager A clock (.read s offset size) w = _ := BlobManager.onSession_served _ _ serves
  rw [run]
  exact deployed.answers (read_known known offset size)

theorem Serving.writes (deployed : Deployed A h stack) (serving : Serving A h s b w)
    {sess : ExampleBlob} (known : (after h stack w.calls).sessions.lookup s = some sess)
    (writable : b.flags &&& OpenFlags.write ≠ 0) (clock : Clock) (offset : UInt32)
    (data : List UInt8) : (blobManager A clock (.write s offset data) w).1 = true ↔
      offset.toNat < kBufferSize ∧ offset.toNat + data.length ≤ kBufferSize := by
  obtain ⟨item, serves⟩ := serving.serves deployed OpenFlags.write writable
  have run : blobManager A clock (.write s offset data) w = _ := BlobManager.onSession_served _ _ serves
  rw [run]
  by_cases fits : offset.toNat < kBufferSize ∧ offset.toNat + data.length ≤ kBufferSize
  · obtain ⟨_, _, written⟩ := write_fits known fits.1 fits.2
    exact iff_of_true (deployed.answers written) fits
  · have refused : A h (.write s offset data) w.calls = false :=
      deployed.answers (write_exceeds known fits)
    exact iff_of_false (Bool.eq_false_iff.mp refused) fits

theorem Serving.stats (deployed : Deployed A h stack) (serving : Serving A h s b w)
    {sess : ExampleBlob} (known : (after h stack w.calls).sessions.lookup s = some sess)
    {base : Buffer} (stages : Stages sess base (stagedBlocks h s w.calls)) (clock : Clock) :
    (blobManager A clock (.sessionStat s) w).1 =
      some ⟨StateFlags.open_read ||| StateFlags.open_write,
        UInt32.ofNat (Overlay.extent (stagedBlocks h s w.calls)), []⟩ := by
  obtain ⟨item, serves⟩ :=
    serving.serves deployed BlobManager.anyFlags (serving.sound.bound_flags serving.bound)
  have run : blobManager A clock (.sessionStat s) w = _ := BlobManager.onSession_served _ _ serves
  have told : A h (.sessionStat s) w.calls = _ := deployed.answers sessionStat_run
  rw [run]
  refine told.trans ?_
  rw [known, Option.map_some, stages.length, stages.state]

end Serving

theorem opensSession_names {h : H} {s : SessionId} {e : Event H} (opens : opensSession h s e = true) :
    ∃ b, lifecycle e = some (s, b) := by
  obtain ⟨g, call, answer⟩ := e
  cases call with
  | «open» t flags path =>
    cases answer with
    | true =>
      obtain ⟨_, rfl⟩ := of_decide_eq_true opens
      exact ⟨_, rfl⟩
    | false => cases opens
  | _ => cases opens

/-- What a session of the handler shows to its host, in every reachable state: reads return
its accepted writes laid over the bytes that its open found, a write is accepted exactly when
it fits into the buffer, and the size is where the furthest of the accepted writes ends. -/
theorem example_session_contents {A : Answers H} {h : H} {stack : Nat → Buffer}
    (deployed : Deployed A h stack) (sessionTimeout : Time) (next : UInt16)
    (requests : List (Clock × ManagerCall H)) (s : SessionId) (b : Binding H)
    (bound : (history A sessionTimeout next requests).2.manager.bound s = some b) (own : b.handler = h) :
    let w := (history A sessionTimeout next requests).2
    let blocks := stagedBlocks h s w.calls
    (∀ block ∈ blocks, block.stop ≤ kBufferSize) ∧
    ∃ before after, w.calls = before ++ ⟨h, .open s b.flags b.path, true⟩ :: after ∧
      (∀ e ∈ after, ∀ x, lifecycle e = some x → x.1 ≠ s) ∧ ∀ clock,
      (∀ offset size, b.flags &&& OpenFlags.read ≠ 0 →
        (blobManager A clock (.read s offset size) w).1 =
          Overlay.slice (Overlay.writeAll (stack before.length).bytes blocks) offset.toNat
            (min (kBufferSize - offset.toNat) size.toNat)) ∧
      (∀ offset data, b.flags &&& OpenFlags.write ≠ 0 →
        ((blobManager A clock (.write s offset data) w).1 = true ↔
          offset.toNat < kBufferSize ∧ offset.toNat + data.length ≤ kBufferSize)) ∧
      (blobManager A clock (.sessionStat s) w).1 =
        some ⟨StateFlags.open_read ||| StateFlags.open_write, UInt32.ofNat (Overlay.extent blocks), []⟩ := by
  intro w blocks
  have serving : Serving A h s b w := ⟨⟨sessionTimeout, next, requests, rfl⟩, bound, own⟩
  obtain ⟨sess, known, stages⟩ := serving.holds deployed
  have still : StillOpen w.calls s b.handler b.flags b.path :=
    ledger_eq_some.mp ((serving.sound.faithful s).symm.trans bound)
  obtain ⟨before, after, split, quiet⟩ := Journal.latest_split still
  rw [own] at split
  have base : foundBuffer h stack s w.calls = stack before.length := by
    rw [split]
    refine foundBuffer_split (by simp [opensSession]) fun e inside => ?_
    by_contra opens
    obtain ⟨_, names⟩ := opensSession_names (Bool.not_eq_false _ ▸ opens)
    exact quiet e inside _ names rfl
  refine ⟨stages.fit, before, after, split, quiet, fun clock =>
    ⟨fun offset size readable => ?_, fun offset data writable => ?_, ?_⟩⟩
  · rw [← base, ← stages.buffer]
    exact serving.reads deployed known readable clock offset size
  · exact serving.writes deployed known writable clock offset data
  · exact serving.stats deployed known stages clock

theorem example_session_contents_write :
    let w := (history (exampleOnly fun _ => zeroes) 60 0
      (exampleOpened ++ [(⟨1, 1⟩, .write 0 2 [7, 8])])).2
    (blobManager (exampleOnly fun _ => zeroes) ⟨2, 2⟩ (.read 0 1 4) w).1 = [0, 7, 8, 0] := by
  intro w
  obtain ⟨_, _, _, _, _, answers⟩ := example_session_contents (exampleOnly_deployed fun _ => zeroes) 60 0
    (exampleOpened ++ [(⟨1, 1⟩, .write 0 2 [7, 8])]) 0 ⟨(), 3, supportedPath⟩ rfl rfl
  refine ((answers ⟨2, 2⟩).1 1 4 (by decide)).trans ?_
  decide +kernel

end PhosphorBlobs
