import PhosphorBlobs.Example.Transfer

/-! The transfer as hosts see it, from the start of the daemon on. A host knows the reply to
its Open and nothing else about the state; where the example handler is the only one to claim
its path, that is enough. -/
namespace PhosphorBlobs

open ExampleBlobHandler

variable {H F : Type} [DecidableEq H]

section Delivered

variable {A : Answers H} {h : H} {stack : Nat → Buffer} {s : SessionId}
  {generateCrc : List UInt8 → UInt16} {getChannelMaxTransferSize : UInt8 → Nat}

omit [DecidableEq H] in
theorem reply_opened {flags : UInt16} {path : Path} {answer : BlobManager.Opened} {maxSize : Nat}
    (said : ((Request.open flags path).reply (H := H) answer).sent generateCrc maxSize =
      responseSuccess (withCrc generateCrc (le16 s))) : answer = .opened s := by
  cases answer with
  | refused stored => cases said
  | opened t =>
    have sent : (if (le16 t).length + 2 ≤ maxSize then responseSuccess (withCrc generateCrc (le16 t))
        else responseResponseError) = responseSuccess (withCrc generateCrc (le16 s)) := said
    split at sent
    · have bytes : withCrc generateCrc (le16 t) = withCrc generateCrc (le16 s) := by
        injection sent with _ payload
        exact Option.some.inj payload
      have shown : ∀ id : SessionId, u16At 2 (withCrc generateCrc (le16 id)) = id := by
        intro id
        have field := u16At_le16 id []
        rw [List.append_nil] at field
        rw [withCrc, u16At_past _ 0, field]
      rw [← shown t, bytes, shown s]
    · cases sent

theorem Serving.opened
    (alone : ∀ g past, A g (.canHandleBlob supportedPath) past = true → g = h) {w : World H}
    (reached : ∃ sessionTimeout next asked, w = (history A sessionTimeout next asked).2)
    {o : HostRequest} {flags : UInt16}
    (opens : Accepts generateCrc o.cmd o.data (.open flags supportedPath))
    (said : (exchange generateCrc getChannelMaxTransferSize A w o).1 =
      .ok (responseSuccess (withCrc generateCrc (le16 s)))) :
    let v := (exchange generateCrc getChannelMaxTransferSize A w o).2
    Serving A h s ⟨h, flags, supportedPath⟩ v ∧ stagedBlocks h s v.calls = [] := by
  intro v
  obtain ⟨sessionTimeout, next, asked, rfl⟩ := reached
  have run := exchange_accepts getChannelMaxTransferSize A opens (history A sessionTimeout next asked).2
  have answered := reply_opened (H := H) (Except.ok.inj ((congrArg Prod.fst run).symm.trans said))
  have after : v = _ := congrArg Prod.snd run
  obtain ⟨_, g, past, calls, claims, bound, last⟩ :=
    opened_last (history_sound A sessionTimeout next asked) answered
  cases alone g past claims
  rw [after]
  refine ⟨⟨⟨sessionTimeout, next, asked ++ [(o.clock, .open flags supportedPath true)], ?_⟩, bound, rfl⟩, ?_⟩
  · exact (history_concat A sessionTimeout next asked _).symm
  · have emptied : stage h s (stagedBlocks h s calls) ⟨h, .open s flags supportedPath, true⟩ = [] := by
      rw [stage_open, if_pos rfl]
    exact (congrArg (stagedBlocks h s) last).trans ((stagedBlocks_concat h s calls _).trans emptied)

/-- A blob sent to the daemon, as its hosts see it. Past requests are arbitrary; then the path
is opened for reading and writing and the reply shows a session; then the pieces are sent,
among whatever else hosts ask that neither closes the session nor writes something else to it. -/
theorem blob_delivered [DecidableEq F] (libs : Path → Library F) (made : F → Made H)
    (generateCrc : List UInt8 → UInt16) (getChannelMaxTransferSize : UInt8 → Nat)
    (deployed : Deployed A h stack)
    (alone : ∀ g past, A g (.canHandleBlob supportedPath) past = true → g = h) (clock : Clock)
    (directory : Option (List Path)) (sessionTimeout : Time) (next : UInt16) (past : List HostRequest)
    (o : HostRequest) (flags : UInt16) (opens : Accepts generateCrc o.cmd o.data (.open flags supportedPath))
    (readable : flags &&& OpenFlags.read ≠ 0) (writable : flags &&& OpenFlags.write ≠ 0)
    (s : SessionId) (blob : List UInt8) (small : blob.length ≤ kBufferSize)
    (transfer : List HostRequest) (pieces : ∀ r ∈ transfer, SendsPiece generateCrc s blob r)
    (complete : SendsAll generateCrc s blob transfer) :
    let w := (daemon libs made generateCrc getChannelMaxTransferSize A clock directory sessionTimeout
      next past).2
    let opened := exchange generateCrc getChannelMaxTransferSize A w o
    let run := Machine.run (exchange generateCrc getChannelMaxTransferSize A) opened.2 transfer
    opened.1 = .ok (responseSuccess (withCrc generateCrc (le16 s))) →
    (∀ x ∈ transfer.zip run.1, ∀ offset data,
      Accepts generateCrc x.1.cmd x.1.data (.write s offset data) → x.2 = .ok (responseSuccess [])) ∧
    (∀ r : HostRequest, Accepts generateCrc r.cmd r.data (.sessionStat s) →
      9 ≤ getChannelMaxTransferSize r.channel →
        (exchange generateCrc getChannelMaxTransferSize A run.2 r).1 =
          .ok (responseSuccess (withCrc generateCrc (statBytes
            ⟨StateFlags.open_read ||| StateFlags.open_write, UInt32.ofNat blob.length, []⟩)))) ∧
    ∀ (r : HostRequest) (offset size : UInt32), Accepts generateCrc r.cmd r.data (.read s offset size) →
      offset.toNat + size.toNat ≤ blob.length → size.toNat + 2 ≤ getChannelMaxTransferSize r.channel →
        (exchange generateCrc getChannelMaxTransferSize A run.2 r).1 =
          .ok (responseSuccess (withCrc generateCrc (Overlay.slice blob offset.toNat size.toNat))) := by
  intro w opened run said
  obtain ⟨asked, reached⟩ := daemon_reached libs made generateCrc getChannelMaxTransferSize A clock
    directory sessionTimeout next past
  obtain ⟨serving, nothing⟩ := Serving.opened alone ⟨sessionTimeout, next, asked, reached⟩ opens said
  have sent := serving.sent getChannelMaxTransferSize deployed writable small pieces
  rw [nothing] at sent
  have whole : SendsAll generateCrc s blob ((transfer.zip run.1).map Prod.fst) := by
    rw [Machine.map_fst_transcript]
    exact complete
  refine ⟨sent.acknowledged, fun r accepts fits => ?_, fun r offset size accepts within fits => ?_⟩
  · exact sent.size_told deployed whole accepts fits
  · exact sent.read_back deployed readable small whole accepts within fits

def openRequest : HostRequest :=
  ⟨⟨0, 0⟩, 0, 2, withCrc (fun _ => 0x1234) (le16 3 ++ (supportedPath ++ [0]))⟩

theorem openRequest_accepted :
    Accepts (fun _ => 0x1234) openRequest.cmd openRequest.data (.open 3 supportedPath) :=
  .checked rfl ⟨_, rfl, .open 3 (by decide)⟩

theorem blob_delivered_two :
    let w := (daemon (fun _ => Library.providing ()) (fun _ => .result (some ())) (fun _ => 0x1234)
      (fun _ => 64) (exampleOnly fun _ => zeroes) ⟨0, 0⟩ (some [[46, 115, 111]]) 60 0 []).2
    let opened := exchange (fun _ => 0x1234) (fun _ => 64) (exampleOnly fun _ => zeroes) w openRequest
    let run := Machine.run (exchange (fun _ => 0x1234) (fun _ => 64) (exampleOnly fun _ => zeroes))
      opened.2 [writing 1 [8, 9], writing 0 [7]]
    (exchange (fun _ => 0x1234) (fun _ => 64) (exampleOnly fun _ => zeroes) run.2 readingAll).1 =
      .ok (responseSuccess (withCrc (fun _ => 0x1234) [7, 8, 9])) := by
  refine (blob_delivered (fun _ => Library.providing ()) (fun _ => .result (some ())) (fun _ => 0x1234)
    (fun _ => 64) (exampleOnly_deployed fun _ => zeroes) (fun _ _ _ => rfl) ⟨0, 0⟩
    (some [[46, 115, 111]]) 60 0 [] openRequest 3 openRequest_accepted (by decide) (by decide) 0 [7, 8, 9]
    (by decide) [writing 1 [8, 9], writing 0 [7]] ?_ ?_ ?_).2.2 readingAll 0 3
    (.checked rfl ⟨_, rfl, .read 0 0 3 []⟩) (by decide) (by decide)
  · exact two_pieces
  · exact two_complete
  · rfl

end Delivered

end PhosphorBlobs
