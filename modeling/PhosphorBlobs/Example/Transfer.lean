import PhosphorBlobs.Example.Staging
import PhosphorBlobs.Service.Daemon

/-! A blob sent over the wire to the example handler. The pieces may come in any order and
any number of times, among any other requests that neither close the session nor write
something else to it: all are accepted, and reads return the blob. -/
namespace PhosphorBlobs

open ExampleBlobHandler

variable {H : Type} [DecidableEq H]

section Manager

variable {A : Answers H} {w : World H} {h : H} {s : SessionId}

theorem stagedBlocks_idle {past more : List (Event H)}
    (idle : ∀ e ∈ more, ∀ blocks, stage h s blocks e = blocks) :
    stagedBlocks h s (past ++ more) = stagedBlocks h s past := by
  induction more using List.reverseRecOn with
  | nil => rw [List.append_nil]
  | append_singleton front e ih =>
    rw [← List.append_assoc, stagedBlocks_concat, idle e (by simp)]
    exact ih fun f hf => idle f (List.mem_append_left _ hf)

theorem stage_other {e : Event H} (other : e.call.session? ≠ some s)
    (blocks : List (Overlay.Block UInt8)) : stage h s blocks e = blocks := by
  obtain ⟨g, call, answer⟩ := e
  cases call with
  | «open» t flags path | write t offset data =>
    have apart : ¬ (g = h ∧ t = s) := fun both => other (congrArg some both.2)
    cases answer with
    | true => exact if_neg apart
    | false => rfl
  | _ => rfl

theorem staged_kept (sound : Sound w) {b : Binding H} (bound : w.manager.bound s = some b)
    (clock : Clock) {call : ManagerCall H} (unwritten : ∀ offset data, call ≠ .write s offset data) :
    stagedBlocks h s (step A w (clock, call)).2.calls = stagedBlocks h s w.calls := by
  rw [step_calls sound]
  apply stagedBlocks_idle
  intro e he blocks
  by_cases names : e.call.session? = some s
  · obtain ⟨g, heard, answer⟩ := e
    rcases step_mentions (A := A) sound bound clock call _ he names with expiry | ⟨required, shape⟩
    · cases expiry
      rfl
    · cases call with
      | write t offset data => cases shape; exact absurd rfl (unwritten offset data)
      | sessionStat _ | commit _ _ | close _ | read _ _ _ | writeMeta _ _ _ => cases shape; rfl
      | _ => cases shape
  · exact stage_other names blocks

end Manager

section Wire

variable {A : Answers H} {h : H} {stack : Nat → Buffer} {s : SessionId} {b : Binding H}
  {generateCrc : List UInt8 → UInt16} {getChannelMaxTransferSize : UInt8 → Nat}

theorem Serving.step (deployed : Deployed A h stack) {w : World H} (serving : Serving A h s b w)
    (clock : Clock) {call : ManagerCall H} (unclosed : call ≠ .close s) :
    Serving A h s b (step A w (clock, call)).2 := by
  obtain ⟨⟨sessionTimeout, next, requests, rfl⟩, bound, own⟩ := serving
  have kept : (history A sessionTimeout next (requests ++ [(clock, call)])).2.manager.bound s = some b :=
    example_kept deployed bound own fun request inside => by
      cases List.mem_singleton.mp inside
      exact unclosed
  rw [history_concat] at kept
  exact ⟨⟨sessionTimeout, next, requests ++ [(clock, call)], (history_concat ..).symm⟩, kept, own⟩

theorem write_accepted (deployed : Deployed A h stack) {w : World H} (serving : Serving A h s b w)
    (writable : b.flags &&& OpenFlags.write ≠ 0) (clock : Clock) {offset : UInt32} {data : List UInt8}
    (inside : offset.toNat < kBufferSize) (room : offset.toNat + data.length ≤ kBufferSize) :
    (blobManager A clock (.write s offset data) w).1 = true ∧
      stagedBlocks h s (PhosphorBlobs.step A w (clock, .write s offset data)).2.calls =
        stagedBlocks h s w.calls ++ [⟨offset.toNat, data⟩] := by
  obtain ⟨sess, known, _⟩ := serving.holds deployed
  have accepted := (serving.writes deployed known writable clock offset data).mpr ⟨inside, room⟩
  obtain ⟨item, serves⟩ := serving.serves deployed OpenFlags.write writable
  have run : blobManager A clock (.write s offset data) w = _ := BlobManager.onSession_served _ _ serves
  have calls : (PhosphorBlobs.step A w (clock, .write s offset data)).2.calls =
      w.calls ++ [⟨h, .write s offset data, A h (.write s offset data) w.calls⟩] :=
    congrArg (·.2.calls) run
  have said : A h (.write s offset data) w.calls = true := (congrArg Prod.fst run).symm.trans accepted
  refine ⟨accepted, ?_⟩
  rw [calls, said, stagedBlocks_concat, stage_write, if_pos rfl]

theorem Accepts.write_named {cmd : UInt8} {body : List UInt8} {offset : UInt32} {data : List UInt8}
    (accepts : Accepts generateCrc cmd body (.write s offset data)) :
    u32At 4 body = offset ∧ body.drop 8 = data ∧ data ≠ [] := by
  cases accepts with
  | checked known formed =>
    obtain ⟨payload, rfl, parses⟩ := formed
    cases parses with
    | write session offset some =>
      refine ⟨by simp [withCrc, u32At_past _ 2, u32At_past _ 0], ?_, some⟩
      rw [withCrc, ← List.append_assoc, ← List.append_assoc, List.drop_left' (by simp)]

/-- The request does not close the session, and what it writes to it is a piece of the blob. -/
def SendsPiece (generateCrc : List UInt8 → UInt16) (s : SessionId) (blob : List UInt8)
    (r : HostRequest) : Prop :=
  ∀ request, Accepts generateCrc r.cmd r.data request → request ≠ .close s ∧
    ∀ offset data, request = .write s offset data →
      (⟨offset.toNat, data⟩ : Overlay.Block UInt8).PieceOf blob

theorem SendsPiece.of_write {blob : List UInt8} {r : HostRequest}
    (known : BlobOEMCommands.ofByte r.cmd = some .bmcBlobWrite)
    (piece : (⟨(u32At 4 r.data).toNat, r.data.drop 8⟩ : Overlay.Block UInt8).PieceOf blob) :
    SendsPiece generateCrc s blob r := by
  intro request accepts
  have command := accepts.command (H := Unit)
  refine ⟨?_, ?_⟩
  · rintro rfl
    rw [known] at command
    cases command
  · rintro offset data rfl
    obtain ⟨rfl, rfl, _⟩ := accepts.write_named
    exact piece

/-- What was sent so far is staged, behind what was staged before. -/
structure Sent (generateCrc : List UInt8 → UInt16) (A : Answers H) (h : H) (s : SessionId)
    (b : Binding H) (blob : List UInt8) (old : List (Overlay.Block UInt8))
    (past : List (HostRequest × Except Fault Resp)) (w : World H) : Prop where
  serving : Serving A h s b w
  staged : ∃ new, stagedBlocks h s w.calls = old ++ new ∧
    (∀ block ∈ new, block.PieceOf blob ∧ block.stop ≤ blob.length) ∧
    ∀ x ∈ past, ∀ offset data, Accepts generateCrc x.1.cmd x.1.data (.write s offset data) →
      x.2 = .ok (responseSuccess []) ∧ ⟨offset.toNat, data⟩ ∈ new

theorem Sent.step (deployed : Deployed A h stack) (writable : b.flags &&& OpenFlags.write ≠ 0)
    {blob : List UInt8} (small : blob.length ≤ kBufferSize) {old : List (Overlay.Block UInt8)}
    {past : List (HostRequest × Except Fault Resp)} {w : World H} {r : HostRequest}
    (sends : SendsPiece generateCrc s blob r) (sent : Sent generateCrc A h s b blob old past w) :
    Sent generateCrc A h s b blob old
      (past ++ [(r, (exchange generateCrc getChannelMaxTransferSize A w r).1)])
      (exchange generateCrc getChannelMaxTransferSize A w r).2 := by
  obtain ⟨serving, new, staged, pieces, before⟩ := sent
  by_cases writes : ∃ offset data, Accepts generateCrc r.cmd r.data (.write s offset data)
  · obtain ⟨offset, data, accepts⟩ := writes
    obtain ⟨offset_named, data_named, some⟩ := accepts.write_named
    have piece := (sends _ accepts).2 offset data rfl
    have fits : offset.toNat + data.length ≤ blob.length := piece.fits some
    have bytes := List.length_pos_iff.mpr some
    have inside : offset.toNat < kBufferSize := by omega
    have room : offset.toNat + data.length ≤ kBufferSize := by omega
    obtain ⟨accepted, added⟩ := write_accepted deployed serving writable r.clock inside room
    have run := exchange_accepts getChannelMaxTransferSize A accepts w
    rw [run]
    refine ⟨serving.step deployed r.clock (by exact nofun), new ++ [⟨offset.toNat, data⟩], ?_, ?_, ?_⟩
    · rw [← List.append_assoc, ← staged]
      exact added
    · intro block inside
      rcases List.mem_append.mp inside with earlier | last
      · exact pieces block earlier
      · rw [List.mem_singleton.mp last]
        exact ⟨piece, fits⟩
    · intro x hx offset' data' also
      rcases List.mem_append.mp hx with earlier | last
      · obtain ⟨replied, there⟩ := before x earlier offset' data' also
        exact ⟨replied, List.mem_append_left _ there⟩
      · cases List.mem_singleton.mp last
        obtain ⟨offset_too, data_too, _⟩ := also.write_named
        cases offset_named.symm.trans offset_too
        cases data_named.symm.trans data_too
        refine ⟨?_, by simp⟩
        have reply : Except.ok (((Request.write s offset data).reply (H := H)
            (blobManager A r.clock (.write s offset data) w).1).sent generateCrc
              (getChannelMaxTransferSize r.channel)) = (.ok (responseSuccess []) : Except Fault Resp) := by
          rw [accepted]
          rfl
        exact reply
  · have others : ∀ x ∈ past ++ [(r, (exchange generateCrc getChannelMaxTransferSize A w r).1)],
        ∀ offset data, Accepts generateCrc x.1.cmd x.1.data (.write s offset data) →
          x.2 = .ok (responseSuccess []) ∧ ⟨offset.toNat, data⟩ ∈ new := by
      intro x hx offset data accepts
      rcases List.mem_append.mp hx with earlier | last
      · exact before x earlier offset data accepts
      · cases List.mem_singleton.mp last
        exact absurd ⟨offset, data, accepts⟩ writes
    rcases exchange_cases generateCrc getChannelMaxTransferSize A w r with
      ⟨request, accepts, served⟩ | ⟨cc, _, _, refused⟩
    · have reached := congrArg Prod.snd served
      have unclosed : request.call H ≠ .close s := by
        intro closes
        have same : request = .close s := Request.call_injective closes
        exact (sends request accepts).1 same
      have unwritten : ∀ offset data, request.call H ≠ .write s offset data := by
        intro offset data same
        have same : request = .write s offset data := Request.call_injective same
        exact writes ⟨offset, data, same ▸ accepts⟩
      refine ⟨?_, new, ?_, pieces, others⟩
      · rw [reached]
        exact serving.step deployed r.clock unclosed
      · rw [reached, ← staged]
        exact staged_kept serving.sound serving.bound r.clock unwritten
    · have reached := congrArg Prod.snd refused
      refine ⟨?_, new, ?_, pieces, others⟩
      · rw [reached]
        exact serving
      · rw [reached]
        exact staged

def SendsAll (generateCrc : List UInt8 → UInt16) (s : SessionId) (blob : List UInt8)
    (transfer : List HostRequest) : Prop :=
  ∀ p < blob.length, ∃ r ∈ transfer, ∃ offset data,
    Accepts generateCrc r.cmd r.data (.write s offset data) ∧ offset.toNat ≤ p ∧
      p < offset.toNat + data.length

section Complete

variable {blob : List UInt8} {old : List (Overlay.Block UInt8)}
  {past : List (HostRequest × Except Fault Resp)} {w : World H}

theorem Sent.covers (sent : Sent generateCrc A h s b blob old past w)
    (complete : SendsAll generateCrc s blob (past.map Prod.fst)) :
    ∃ new, stagedBlocks h s w.calls = old ++ new ∧
      (∀ block ∈ new, block.PieceOf blob ∧ block.stop ≤ blob.length) ∧
      ∀ p < blob.length, ∃ block ∈ new, block.offset ≤ p ∧ p < block.stop := by
  obtain ⟨new, staged, pieces, delivered⟩ := sent.staged
  refine ⟨new, staged, pieces, fun p below => ?_⟩
  obtain ⟨r, inside, offset, data, writes, here⟩ := complete p below
  obtain ⟨x, there, rfl⟩ := List.mem_map.mp inside
  exact ⟨⟨offset.toNat, data⟩, (delivered x there offset data writes).2, here⟩

theorem Sent.read_back (deployed : Deployed A h stack) (readable : b.flags &&& OpenFlags.read ≠ 0)
    (small : blob.length ≤ kBufferSize) (sent : Sent generateCrc A h s b blob old past w)
    (complete : SendsAll generateCrc s blob (past.map Prod.fst)) {r : HostRequest}
    {offset size : UInt32} (accepts : Accepts generateCrc r.cmd r.data (.read s offset size))
    (within : offset.toNat + size.toNat ≤ blob.length)
    (fits : size.toNat + 2 ≤ getChannelMaxTransferSize r.channel) :
    (exchange generateCrc getChannelMaxTransferSize A w r).1 =
      .ok (responseSuccess (withCrc generateCrc (Overlay.slice blob offset.toNat size.toNat))) := by
  obtain ⟨new, staged, pieces, covered⟩ := sent.covers complete
  obtain ⟨sess, known, stages⟩ := sent.serving.holds deployed
  have fit : ∀ block ∈ stagedBlocks h s w.calls,
      block.stop ≤ (foundBuffer h stack s w.calls).bytes.length := by
    rw [(foundBuffer h stack s w.calls).sized]
    exact stages.fit
  have here : (blobManager A r.clock (.read s offset size) w).1 =
      Overlay.slice blob offset.toNat size.toNat := by
    rw [sent.serving.reads deployed known readable, ExampleBlobHandler.staged,
      Nat.min_eq_right (by omega)]
    refine Overlay.slice_congr fun p _ below => ?_
    rw [stages.buffer, Overlay.getElem?_writeAll fit, staged, Overlay.latest?_append,
      Overlay.latest?_pieces (fun block inside => (pieces block inside).1) (covered p (by omega)),
      List.getElem?_eq_getElem (by omega)]
    rfl
  have length : (Overlay.slice blob offset.toNat size.toNat).length = size.toNat := by
    rw [Overlay.slice, List.length_take, List.length_drop]
    omega
  have reply : (Request.read s offset size).reply (H := H)
      (blobManager A r.clock (.read s offset size) w).1 =
      .data (Overlay.slice blob offset.toNat size.toNat) := congrArg Reply.data here
  rw [exchange_accepts getChannelMaxTransferSize A accepts]
  refine (congrArg (fun reply : Reply => Except.ok (reply.sent generateCrc
    (getChannelMaxTransferSize r.channel))) reply).trans ?_
  exact congrArg Except.ok (if_pos (by rw [length]; exact fits))

theorem Sent.size_told (deployed : Deployed A h stack)
    (sent : Sent generateCrc A h s b blob [] past w)
    (complete : SendsAll generateCrc s blob (past.map Prod.fst)) {r : HostRequest}
    (accepts : Accepts generateCrc r.cmd r.data (.sessionStat s))
    (fits : 9 ≤ getChannelMaxTransferSize r.channel) :
    (exchange generateCrc getChannelMaxTransferSize A w r).1 =
      .ok (responseSuccess (withCrc generateCrc (statBytes
        ⟨StateFlags.open_read ||| StateFlags.open_write, UInt32.ofNat blob.length, []⟩))) := by
  obtain ⟨new, staged, pieces, covered⟩ := sent.covers complete
  obtain ⟨sess, known, stages⟩ := sent.serving.holds deployed
  have size : Overlay.extent (stagedBlocks h s w.calls) = blob.length := by
    rw [staged]
    exact Overlay.extent_covered (fun block inside => (pieces block inside).2) covered
  have told := sent.serving.stats deployed known stages r.clock
  rw [size] at told
  have reply : (Request.sessionStat s).reply (H := H)
      (blobManager A r.clock (.sessionStat s) w).1 = .data (statBytes
        ⟨StateFlags.open_read ||| StateFlags.open_write, UInt32.ofNat blob.length, []⟩) :=
    congrArg Reply.ofStat told
  rw [exchange_accepts getChannelMaxTransferSize A accepts]
  refine (congrArg (fun reply : Reply => Except.ok (reply.sent generateCrc
    (getChannelMaxTransferSize r.channel))) reply).trans ?_
  exact congrArg Except.ok (if_pos fits)

end Complete

theorem Serving.sent (getChannelMaxTransferSize : UInt8 → Nat) (deployed : Deployed A h stack)
    {w : World H} (serving : Serving A h s b w)
    (writable : b.flags &&& OpenFlags.write ≠ 0) {blob : List UInt8}
    (small : blob.length ≤ kBufferSize) {transfer : List HostRequest}
    (pieces : ∀ r ∈ transfer, SendsPiece generateCrc s blob r) :
    Sent generateCrc A h s b blob (stagedBlocks h s w.calls)
      (transfer.zip (Machine.run (exchange generateCrc getChannelMaxTransferSize A) w transfer).1)
      (Machine.run (exchange generateCrc getChannelMaxTransferSize A) w transfer).2 :=
  Machine.run_transcript (exchange generateCrc getChannelMaxTransferSize A)
    (Sent generateCrc A h s b blob (stagedBlocks h s w.calls))
    (fun _ _ _ sends sent => sent.step deployed writable small sends)
    ⟨serving, [], (List.append_nil _).symm, nofun, nofun⟩ transfer pieces

theorem Sent.acknowledged {blob : List UInt8} {old : List (Overlay.Block UInt8)}
    {past : List (HostRequest × Except Fault Resp)} {w : World H}
    (sent : Sent generateCrc A h s b blob old past w) :
    ∀ x ∈ past, ∀ offset data, Accepts generateCrc x.1.cmd x.1.data (.write s offset data) →
      x.2 = .ok (responseSuccess []) := by
  obtain ⟨_, _, _, delivered⟩ := sent.staged
  intro x inside offset data accepts
  exact (delivered x inside offset data accepts).1

/-- A transfer, from any state of any run in which the session is open for both reading and
writing on an example handler. Any number of hosts take part. -/
theorem transfer_delivers (deployed : Deployed A h stack) (generateCrc : List UInt8 → UInt16)
    (getChannelMaxTransferSize : UInt8 → Nat) (sessionTimeout : Time) (next : UInt16)
    (past : List (Clock × ManagerCall H))
    (bound : (history A sessionTimeout next past).2.manager.bound s = some b) (own : b.handler = h)
    (readable : b.flags &&& OpenFlags.read ≠ 0) (writable : b.flags &&& OpenFlags.write ≠ 0)
    (blob : List UInt8) (small : blob.length ≤ kBufferSize) (transfer : List HostRequest)
    (pieces : ∀ r ∈ transfer, SendsPiece generateCrc s blob r)
    (complete : SendsAll generateCrc s blob transfer) :
    let run := Machine.run (exchange generateCrc getChannelMaxTransferSize A)
      (history A sessionTimeout next past).2 transfer
    (∀ x ∈ transfer.zip run.1, ∀ offset data,
      Accepts generateCrc x.1.cmd x.1.data (.write s offset data) → x.2 = .ok (responseSuccess [])) ∧
    ∀ (r : HostRequest) (offset size : UInt32), Accepts generateCrc r.cmd r.data (.read s offset size) →
      offset.toNat + size.toNat ≤ blob.length → size.toNat + 2 ≤ getChannelMaxTransferSize r.channel →
        (exchange generateCrc getChannelMaxTransferSize A run.2 r).1 =
          .ok (responseSuccess (withCrc generateCrc (Overlay.slice blob offset.toNat size.toNat))) := by
  intro run
  have serving : Serving A h s b (history A sessionTimeout next past).2 :=
    ⟨⟨sessionTimeout, next, past, rfl⟩, bound, own⟩
  have sent := serving.sent getChannelMaxTransferSize deployed writable small pieces
  refine ⟨sent.acknowledged, fun r offset size accepts within fits => ?_⟩
  refine sent.read_back deployed readable small ?_ accepts within fits
  rw [Machine.map_fst_transcript]
  exact complete

def writing (offset : UInt32) (data : List UInt8) : HostRequest :=
  ⟨⟨1, 1⟩, 0, 4, withCrc (fun _ => 0x1234) (le16 0 ++ (le32 offset ++ data))⟩

theorem writing_accepted (offset : UInt32) {data : List UInt8} (some : data ≠ []) :
    Accepts (fun _ => 0x1234) (writing offset data).cmd (writing offset data).data
      (.write 0 offset data) :=
  .checked rfl ⟨_, rfl, .write 0 offset some⟩

def readingAll : HostRequest :=
  ⟨⟨2, 2⟩, 0, 3, withCrc (fun _ => 0x1234) (le16 0 ++ (le32 0 ++ (le32 3 ++ [])))⟩

theorem two_pieces : ∀ r ∈ [writing 1 [8, 9], writing 0 [7]],
    SendsPiece (fun _ => 0x1234) 0 [7, 8, 9] r := by
  intro r inside
  rcases List.mem_cons.mp inside with rfl | inside
  · exact .of_write rfl (.slice rfl)
  · cases List.mem_singleton.mp inside
    exact .of_write rfl (.slice rfl)

theorem two_complete :
    SendsAll (fun _ => 0x1234) 0 [7, 8, 9] [writing 1 [8, 9], writing 0 [7]] := by
  intro p below
  by_cases first : p = 0
  · exact ⟨writing 0 [7], by simp, 0, [7], writing_accepted 0 (by decide), Nat.zero_le p, by
      rw [first]; decide⟩
  · have late : 1 ≤ p ∧ p < 1 + 2 := ⟨by omega, below⟩
    exact ⟨writing 1 [8, 9], by simp, 1, [8, 9], writing_accepted 1 (by decide), late⟩

theorem transfer_delivers_two :
    let w := (history (exampleOnly fun _ => zeroes) 60 0 exampleOpened).2
    let run := Machine.run (exchange (fun _ => 0x1234) (fun _ => 64) (exampleOnly fun _ => zeroes)) w
      [writing 1 [8, 9], writing 0 [7]]
    (exchange (fun _ => 0x1234) (fun _ => 64) (exampleOnly fun _ => zeroes) run.2 readingAll).1 =
      .ok (responseSuccess (withCrc (fun _ => 0x1234) [7, 8, 9])) :=
  (transfer_delivers (exampleOnly_deployed fun _ => zeroes) (fun _ => 0x1234) (fun _ => 64) 60 0
    exampleOpened (s := 0) (b := ⟨(), 3, supportedPath⟩) rfl rfl (by decide) (by decide) [7, 8, 9]
    (by decide) [writing 1 [8, 9], writing 0 [7]] two_pieces two_complete).2 readingAll 0 3
    (.checked rfl ⟨_, rfl, .read 0 0 3 []⟩) (by decide) (by decide)

end Wire

end PhosphorBlobs
