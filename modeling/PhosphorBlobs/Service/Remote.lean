import PhosphorBlobs.Service.Daemon
import PhosphorBlobs.Wire.Client

/-! A manager that is used over the wire. Apart from the limits of its replies, the daemon is
transparent: a host that lays out its requests and reads the replies back might as well have
the manager at hand. -/
namespace PhosphorBlobs

variable {H : Type} [DecidableEq H]

structure Asking where
  clock : Clock
  channel : UInt8
  request : Request

section Remote

variable (generateCrc : List UInt8 → UInt16) (getChannelMaxTransferSize : UInt8 → Nat) (A : Answers H)

def Asking.sent (x : Asking) : HostRequest :=
  ⟨x.clock, x.channel, x.request.command.code, x.request.body generateCrc⟩

def remote (w : World H) (x : Asking) : Option Outcome × World H :=
  let done := exchange generateCrc getChannelMaxTransferSize A w (x.sent generateCrc)
  (decode generateCrc x.request.command done.1, done.2)

/-- The manager at hand. What would not fit the channel is not told. -/
def atHand (w : World H) (x : Asking) : Option Outcome × World H :=
  let done := blobManager A x.clock (x.request.call H) w
  (some (if (x.request.reply done.1).fits (getChannelMaxTransferSize x.channel) then
    x.request.outcome done.1 else .failed), done.2)

/-- The metadata of every stat can be announced in one byte. -/
structure Brief (A : Answers H) : Prop where
  stat : ∀ h path calls info, A h (.stat path) calls = some info → info.metadata.length < 256
  sessionStat : ∀ h s calls info, A h (.sessionStat s) calls = some info → info.metadata.length < 256

variable {generateCrc getChannelMaxTransferSize A}

omit [DecidableEq H] in
theorem Brief.stat_short (brief : Brief A) {path : Path} {w : World H} {info : BlobMeta}
    (told : (BlobManager.stat A path w).1 = some info) : info.metadata.length < 256 := by
  cases found : (BlobManager.getHandler A path w).1 with
  | none =>
    simp only [BlobManager.stat, bind_apply, found] at told
    cases told
  | some h =>
    simp only [BlobManager.stat, bind_apply, found, invoke_apply] at told
    exact brief.stat h path _ info told

omit [DecidableEq H] in
theorem Brief.sessionStat_short (brief : Brief A) {clock : Clock} {s : SessionId} {w : World H}
    {info : BlobMeta} (told : (BlobManager.sessionStat A clock s w).1 = some info) :
    info.metadata.length < 256 := by
  cases found : (BlobManager.getActionHandler clock.first s BlobManager.anyFlags w.manager).1 with
  | none =>
    simp only [BlobManager.sessionStat, BlobManager.onSession, bind_apply, onManager_apply, found] at told
    cases told
  | some h =>
    simp only [BlobManager.sessionStat, BlobManager.onSession, bind_apply, onManager_apply, found,
      invoke_apply] at told
    exact brief.sessionStat h s _ info told

omit [DecidableEq H] in
theorem Request.outcome_info {request : Request} {answer : (request.call H).Answer} {info : BlobMeta}
    (told : request.outcome answer = .info info) :
    (∃ path, request = .stat path) ∨ ∃ s, request = .sessionStat s := by
  have of_bool : ∀ {succeeded : Bool}, Outcome.ofBool succeeded ≠ .info info := by
    rintro (_ | _) same <;> cases same
  cases request with
  | getCount | read _ _ _ => cases told
  | enumerate blobIdx =>
    cases (answer : Path) <;> cases told
  | «open» flags path =>
    cases (answer : BlobManager.Opened) <;> cases told
  | stat path => exact .inl ⟨path, rfl⟩
  | sessionStat s => exact .inr ⟨s, rfl⟩
  | write _ _ _ | commit _ _ | close _ | delete _ | writeMeta _ _ _ => exact absurd told of_bool

theorem Brief.outcome_short (brief : Brief A) {clock : Clock} {w : World H} {request : Request}
    {info : BlobMeta} (told : request.outcome (blobManager A clock (request.call H) w).1 = .info info) :
    info.metadata.length < 256 := by
  have of_stat : ∀ {stat : Option BlobMeta}, Outcome.ofStat stat = .info info → stat = some info := by
    rintro (_ | other) same
    · cases same
    · cases same
      rfl
  rcases Request.outcome_info told with ⟨path, rfl⟩ | ⟨s, rfl⟩
  · exact brief.stat_short (of_stat told)
  · exact brief.sessionStat_short (of_stat told)

theorem remote_step (brief : Brief A) (w : World H) {x : Asking} (sendable : x.request.Sendable) :
    remote generateCrc getChannelMaxTransferSize A w x = atHand getChannelMaxTransferSize A w x := by
  have accepts : Accepts generateCrc (x.sent generateCrc).cmd (x.sent generateCrc).data x.request :=
    .sent generateCrc sendable
  have run := exchange_accepts getChannelMaxTransferSize A accepts w
  unfold remote atHand
  rw [run]
  refine Prod.ext ?_ rfl
  exact decode_sent x.request _ fun info told => brief.outcome_short told

end Remote

/-- A host that lays out its requests and reads the replies back has the manager at hand: in
every run the outcomes and the world are the same, up to replies that the channel cannot carry.
What else may be sent is refused and changes nothing, or is another spelling of a request. -/
theorem remote_is_local (generateCrc : List UInt8 → UInt16) (getChannelMaxTransferSize : UInt8 → Nat)
    {A : Answers H} (brief : Brief A) :
    (∀ (w : World H) (asks : List Asking), (∀ x ∈ asks, x.request.Sendable) →
      Machine.run (remote generateCrc getChannelMaxTransferSize A) w asks =
        Machine.run (atHand getChannelMaxTransferSize A) w asks) ∧
    ∀ r : HostRequest,
      (∃ request : Request, request.Sendable ∧ ∀ w,
        exchange generateCrc getChannelMaxTransferSize A w r =
          exchange generateCrc getChannelMaxTransferSize A w
            (Asking.sent generateCrc ⟨r.clock, r.channel, request⟩)) ∨
      ∃ cc, cc ≠ Cc.success ∧
        ∀ w, exchange generateCrc getChannelMaxTransferSize A w r = (.ok ⟨cc, none⟩, w) := by
  refine ⟨fun w asks sendable => ?_, fun r => ?_⟩
  · exact Machine.run_congr fun v x asked => remote_step brief v (sendable x asked)
  · by_cases accepted : ∃ request, Accepts generateCrc r.cmd r.data request
    · obtain ⟨request, accepts⟩ := accepted
      have spelled : Accepts generateCrc request.command.code (request.body generateCrc) request :=
        .sent generateCrc accepts.sendable
      refine .inl ⟨request, accepts.sendable, fun w => ?_⟩
      rw [exchange_accepts getChannelMaxTransferSize A accepts w]
      exact (exchange_accepts (r := Asking.sent generateCrc ⟨r.clock, r.channel, request⟩)
        getChannelMaxTransferSize A spelled w).symm
    · exact .inr (exchange_refuses getChannelMaxTransferSize A (not_exists.mp accepted))

def telling : Answers Unit
  | _, .sessionStat s, _ => some ⟨s, 2, [7, 8]⟩
  | _, .read _ _ size, _ => List.replicate size.toNat 5
  | h, call, past => willing h call past

theorem telling_brief : Brief telling where
  stat := nofun
  sessionStat := by
    rintro h s calls info ⟨⟩
    change 2 < 256
    decide

theorem remote_is_local_five :
    let w := (daemon (fun _ => Library.providing ()) (fun _ => .result (some ())) (fun _ => 0x1234)
      (fun _ => 64) telling ⟨0, 0⟩ (some [[46, 115, 111]]) 60 0 []).2
    let asks : List Asking := [⟨⟨1, 1⟩, 0, .open 1 [65]⟩, ⟨⟨2, 2⟩, 0, .sessionStat 0⟩,
      ⟨⟨3, 3⟩, 0, .read 0 0 3⟩, ⟨⟨4, 4⟩, 1, .read 0 0 3⟩, ⟨⟨5, 5⟩, 0, .close 0⟩]
    let limit := fun channel : UInt8 => if channel = 0 then 64 else 4
    (Machine.run (remote (fun _ => 0x1234) limit telling) w asks).1 =
      [some (.opened 0), some (.info ⟨0, 2, [7, 8]⟩), some (.bytes [5, 5, 5]), some .failed, some .done] := by
  intro w asks limit
  rw [(remote_is_local (fun _ => 0x1234) limit telling_brief).1 w asks (by decide)]
  decide +kernel +revert

end PhosphorBlobs
