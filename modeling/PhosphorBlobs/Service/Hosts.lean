import PhosphorBlobs.Manager.Lifetime
import PhosphorBlobs.Service.HostView

/-! Several hosts of one daemon. Where two clients of the manager are apart, so are two hosts
in front of it: the daemon passes requests on one by one, and what it refuses it refuses in
every state alike. -/
namespace PhosphorBlobs

variable {H F : Type} [DecidableEq H]

section Front

variable (generateCrc : List UInt8 → UInt16) (getChannelMaxTransferSize : UInt8 → Nat) (A : Answers H)

/-- An exchange that is answered with what a host sees of it. -/
def converse (w : World H) (r : HostRequest) : (HostRequest × Except Fault Resp) × World H :=
  ((r, (exchange generateCrc getChannelMaxTransferSize A w r).1),
    (exchange generateCrc getChannelMaxTransferSize A w r).2)

def remaining (mine : Finset SessionId) (x : HostRequest × Except Fault Resp) : Finset SessionId :=
  mine.filter fun s => told x ≠ some (s, none)

def PassedAs (r : HostRequest) (asked : Clock × ManagerCall H) : Prop :=
  ∃ request, Accepts generateCrc r.cmd r.data request ∧ asked = (r.clock, request.call H)

/-- What a host may ask is judged by the manager request it is passed on as, if it is. -/
def MayAsk (may : Finset SessionId → World H → Bool → Clock × ManagerCall H → Prop)
    (mine : Finset SessionId) (w : World H) (own : Bool) (r : HostRequest) : Prop :=
  ∀ asked, PassedAs generateCrc r asked → may mine w own asked

variable {generateCrc getChannelMaxTransferSize A}

theorem told_ended {r : HostRequest} {reply : Except Fault Resp} {s : SessionId}
    (ended : told (r, reply) = some (s, none)) :
    BlobOEMCommands.ofByte r.cmd = some .bmcBlobClose := by
  unfold told at ended
  split at ended
  · cases ended
  · rename_i known
    exact known
  · cases ended

theorem told_closed {r : HostRequest} {request : Request}
    (accepts : Accepts generateCrc r.cmd r.data request) (w : World H) (s : SessionId) :
    told (r, (exchange generateCrc getChannelMaxTransferSize A w r).1) = some (s, none) ↔
      (step A w (r.clock, request.call H)).1.closed? = some s := by
  have reply := congrArg Prod.fst (exchange_accepts getChannelMaxTransferSize A accepts w)
  by_cases closes : ∃ t, request = .close t
  · obtain ⟨t, rfl⟩ := closes
    have tells := told_close (H := H) accepts (blobManager A r.clock (.close t) w).1
      (getChannelMaxTransferSize r.channel)
    rw [show (Request.close t).call H = .close t from rfl, closed_close, reply]
    refine (Eq.congr_left tells).trans ?_
    cases (blobManager A r.clock (.close t) w).1 <;> simp
  · constructor
    · intro ended
      have known := told_ended ended
      rw [← accepts.command (H := H)] at known
      cases request with
      | close t => exact absurd ⟨t, rfl⟩ closes
      | _ => cases known
    · intro closed
      exact absurd ⟨s, Request.call_injective (closed_names closed)⟩ closes

theorem converse_passes {r : HostRequest} {asked : Clock × ManagerCall H}
    (passed : PassedAs generateCrc r asked) :
    (∀ w, (converse generateCrc getChannelMaxTransferSize A w r).2 = (step A w asked).2) ∧
    (∀ w v, (step A w asked).1 = (step A v asked).1 →
      (converse generateCrc getChannelMaxTransferSize A w r).1 =
        (converse generateCrc getChannelMaxTransferSize A v r).1) ∧
    ∀ mine w, remaining mine (converse generateCrc getChannelMaxTransferSize A w r).1 =
      left mine (step A w asked).1 := by
  obtain ⟨request, accepts, rfl⟩ := passed
  have run := exchange_accepts getChannelMaxTransferSize A accepts
  refine ⟨fun w => congrArg Prod.snd (run w), fun w v same => ?_, fun mine w => ?_⟩
  · have answers : (blobManager A r.clock (request.call H) w).1 = (blobManager A r.clock (request.call H) v).1 := by
      injection same
    unfold converse
    rw [run w, run v, answers]
  · refine Finset.filter_congr fun s _ => ?_
    exact (told_closed accepts w s).not

theorem converse_keeps {r : HostRequest} (kept : ∀ asked, ¬ PassedAs (H := H) generateCrc r asked) :
    ∃ said, (∀ w, converse generateCrc getChannelMaxTransferSize A w r = (said, w)) ∧
      ∀ mine, remaining mine said = mine := by
  have refuses : ∀ request, ¬ Accepts generateCrc r.cmd r.data request :=
    fun request accepts => kept _ ⟨request, accepts, rfl⟩
  obtain ⟨cc, failed, refused⟩ := exchange_refuses getChannelMaxTransferSize A refuses
  refine ⟨(r, .ok ⟨cc, none⟩), fun w => ?_, fun mine => ?_⟩
  · unfold converse
    rw [refused]
  · apply Finset.filter_true_of_mem
    intro s _
    rw [told_refusal failed]
    exact nofun

variable (generateCrc getChannelMaxTransferSize)

theorem hosts_unwind {may : Finset SessionId → World H → Bool → Clock × ManagerCall H → Prop}
    {R : Finset SessionId → World H → World H → Prop}
    (clients : Machine.Unwinding (step A) left may R) :
    Machine.Unwinding (converse generateCrc getChannelMaxTransferSize A) remaining
      (MayAsk generateCrc may) R :=
  .front (step A) left may clients (fun _ _ => converse_passes) (fun _ => converse_keeps)

end Front

theorem Isolated.start {mine : Finset SessionId} {w : World H} (sound : Sound w)
    (opened : ∀ s ∈ mine, (w.manager.sessions.lookup s).isSome = true) : Isolated mine w w := by
  refine ⟨sound, fun s inside => ?_⟩
  obtain ⟨item, known⟩ := Option.isSome_iff_exists.mp (opened s inside)
  obtain ⟨h, _, owner⟩ := sound.tables.registered s item known
  exact ⟨item, h, known, owner, known, rfl⟩

/-- Two hosts that keep to their own sessions do not interfere, in any interleaving: what the
first one is replied is, byte for byte, what it would be replied without the second. -/
theorem hosts_do_not_interfere [DecidableEq F] (libs : Path → Library F) (made : F → Made H)
    (generateCrc : List UInt8 → UInt16) (getChannelMaxTransferSize : UInt8 → Nat) (A : Answers H)
    (can : H → Path → Bool) (loc : SessionLocal A can) (clock : Clock) (directory : Option (List Path))
    (sessionTimeout : Time) (next : UInt16) (past : List HostRequest) (mine : Finset SessionId)
    (requests : List (Bool × HostRequest)) :
    let w := (daemon libs made generateCrc getChannelMaxTransferSize A clock directory sessionTimeout
      next past).2
    let talk := converse generateCrc getChannelMaxTransferSize A
    (∀ s ∈ mine, (w.manager.sessions.lookup s).isSome = true) →
    Machine.Disciplined talk remaining (MayAsk generateCrc (Permitted can)) mine w requests →
    Machine.ownAnswers talk w requests = (Machine.run talk w (Machine.ownInputs requests)).1 := by
  intro w talk opened disciplined
  obtain ⟨asked, reached⟩ := daemon_reached libs made generateCrc getChannelMaxTransferSize A clock
    directory sessionTimeout next past
  have sound : Sound w := by
    rw [show w = _ from reached]
    exact history_sound A sessionTimeout next asked
  exact (Machine.unwinding_run talk remaining _
    (hosts_unwind generateCrc getChannelMaxTransferSize (clients_unwind loc))
    (.start sound opened) requests disciplined).1

omit [DecidableEq H] in
theorem PassedAs.names {r : HostRequest} {asked : Clock × ManagerCall H}
    {generateCrc : List UInt8 → UInt16} (passed : PassedAs generateCrc r asked)
    (known : BlobOEMCommands.ofByte r.cmd = some .bmcBlobClose) : asked.2 = .close (u16At 2 r.data) := by
  obtain ⟨request, accepts, rfl⟩ := passed
  have command := accepts.command (H := H)
  rw [known] at command
  cases request with
  | close s => rw [accepts.close_named]; rfl
  | _ => cases command

theorem hosts_do_not_interfere_two :
    let w := (daemon (fun _ => Library.providing true) (fun own => .result (some own)) (fun _ => 0x1234)
      (fun _ => 64) twoHandlers ⟨0, 0⟩ (some [[46, 115, 111]]) 60 0
      [⟨⟨1, 1⟩, 0, 2, [0x34, 0x12, 1, 0, 1, 0]⟩]).2
    let requests : List (Bool × HostRequest) :=
      [(false, ⟨⟨2, 2⟩, 0, 0, []⟩), (true, ⟨⟨3, 3⟩, 0, 6, [0x34, 0x12, 0, 0]⟩)]
    let talk := converse (fun _ => 0x1234) (fun _ => 64) twoHandlers
    Machine.ownAnswers talk w requests = (Machine.run talk w (Machine.ownInputs requests)).1 := by
  refine hosts_do_not_interfere (fun _ => Library.providing true) (fun own => .result (some own))
    (fun _ => 0x1234) (fun _ => 64) twoHandlers _ twoHandlers_local ⟨0, 0⟩ (some [[46, 115, 111]]) 60 0
    [⟨⟨1, 1⟩, 0, 2, [0x34, 0x12, 1, 0, 1, 0]⟩] {0} _ ?_ ⟨?_, ?_, trivial⟩
  · intro s inside
    rw [Finset.mem_singleton.mp inside]
    decide +kernel
  · rintro asked ⟨request, accepts, rfl⟩
    have command := accepts.command (H := Bool)
    cases request <;> cases command
    exact ⟨nofun, nofun⟩
  · intro asked passed
    refine ⟨0, by decide, ?_⟩
    rw [passed.names rfl]
    rfl

end PhosphorBlobs
