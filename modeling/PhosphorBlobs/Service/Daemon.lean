import PhosphorBlobs.Main
import PhosphorBlobs.Service.Errors
import PhosphorBlobs.Service.Loading

/-! The daemon as a whole, from its start on. Whatever hosts send it, it is a manager that
was given the loaded handlers and then asked what the accepted requests stand for. -/
namespace PhosphorBlobs

variable {H F : Type} [DecidableEq H]

/-- A request as ipmid delivers it, with the clock it is served at. -/
structure HostRequest where
  clock : Clock
  channel : UInt8
  cmd : UInt8
  data : List UInt8

section Exchange

variable (generateCrc : List UInt8 → UInt16) (getChannelMaxTransferSize : UInt8 → Nat) (A : Answers H)

def exchange (w : World H) (r : HostRequest) : Except Fault Resp × World H :=
  (blobTransfer generateCrc getChannelMaxTransferSize (blobManager A r.clock) r.channel r.cmd r.data).run w

/-- A request with its reply, beside the manager calls behind it and their records. -/
inductive Exchanged : HostRequest × Except Fault Resp →
    List (Clock × ManagerCall H) × List (Record H) → Prop where
  | served {r : HostRequest} {request : Request} (accepts : Accepts generateCrc r.cmd r.data request)
      (answer : (request.call H).Answer) (calls : List (Event H)) :
      Exchanged
        (r, .ok ((request.reply answer).sent generateCrc (getChannelMaxTransferSize r.channel)))
        ([(r.clock, request.call H)], [⟨r.clock, request.call H, answer, calls⟩])
  | refused {r : HostRequest} (refuses : ∀ request, ¬ Accepts generateCrc r.cmd r.data request)
      {cc : Cc} (failed : cc ≠ .success) : Exchanged (r, .ok ⟨cc, none⟩) ([], [])

variable {generateCrc}

theorem exchange_accepts {r : HostRequest} {request : Request}
    (accepts : Accepts generateCrc r.cmd r.data request) (w : World H) :
    exchange generateCrc getChannelMaxTransferSize A w r =
      (.ok ((request.reply (blobManager A r.clock (request.call H) w).1).sent generateCrc
        (getChannelMaxTransferSize r.channel)), (step A w (r.clock, request.call H)).2) :=
  serve_accepts accepts A r.clock (getChannelMaxTransferSize r.channel) w

theorem exchange_refuses {r : HostRequest}
    (refuses : ∀ request, ¬ Accepts generateCrc r.cmd r.data request) :
    ∃ cc, cc ≠ Cc.success ∧
      ∀ w, exchange generateCrc getChannelMaxTransferSize A w r = (.ok ⟨cc, none⟩, w) := by
  obtain ⟨cc, failed, refused⟩ := handle_refuses (H := H) (m := OnWorld H) refuses
  refine ⟨cc, failed, fun w => ?_⟩
  rw [exchange, blobTransfer, refused]
  rfl

variable (generateCrc)

theorem exchange_cases (w : World H) (r : HostRequest) :
    (∃ request, Accepts generateCrc r.cmd r.data request ∧
      exchange generateCrc getChannelMaxTransferSize A w r =
        (.ok ((request.reply (blobManager A r.clock (request.call H) w).1).sent generateCrc
          (getChannelMaxTransferSize r.channel)), (step A w (r.clock, request.call H)).2)) ∨
    ∃ cc, (∀ request, ¬ Accepts generateCrc r.cmd r.data request) ∧ cc ≠ Cc.success ∧
      exchange generateCrc getChannelMaxTransferSize A w r = (.ok ⟨cc, none⟩, w) := by
  by_cases some : ∃ request, Accepts generateCrc r.cmd r.data request
  · obtain ⟨request, accepts⟩ := some
    exact .inl ⟨request, accepts, exchange_accepts getChannelMaxTransferSize A accepts w⟩
  · have refuses := not_exists.mp some
    obtain ⟨cc, failed, refused⟩ := exchange_refuses getChannelMaxTransferSize A refuses
    exact .inr ⟨cc, refuses, failed, refused w⟩

theorem exchange_matched (w : World H) (r : HostRequest) :
    ∃ asked, Exchanged generateCrc getChannelMaxTransferSize
        (r, (exchange generateCrc getChannelMaxTransferSize A w r).1)
        (asked, (Machine.run (step A) w asked).1) ∧
      (exchange generateCrc getChannelMaxTransferSize A w r).2 = (Machine.run (step A) w asked).2 := by
  rcases exchange_cases generateCrc getChannelMaxTransferSize A w r with
    ⟨request, accepts, served⟩ | ⟨cc, refuses, failed, refused⟩
  · refine ⟨[(r.clock, request.call H)], ?_⟩
    rw [served]
    exact ⟨.served accepts _ _, rfl⟩
  · refine ⟨[], ?_⟩
    rw [refused]
    exact ⟨.refused refuses failed, rfl⟩

theorem exchange_sound {w : World H} (sound : Sound w) (r : HostRequest) :
    Sound (exchange generateCrc getChannelMaxTransferSize A w r).2 := by
  obtain ⟨asked, _, reached⟩ := exchange_matched generateCrc getChannelMaxTransferSize A w r
  rw [reached]
  exact Machine.run_invariant (step A) Sound (fun _ request sound => sound.step request) sound asked

theorem exchange_run_sound {w : World H} (sound : Sound w) (requests : List HostRequest) :
    Sound (Machine.run (exchange generateCrc getChannelMaxTransferSize A) w requests).2 :=
  Machine.run_invariant _ Sound
    (fun _ r sound => exchange_sound generateCrc getChannelMaxTransferSize A sound r) sound requests

end Exchange

section Start

variable [DecidableEq F] (libs : Path → Library F) (made : F → Made H)

def loaded (directory : Option (List Path)) : List H :=
  madeHandlers libs made (getLibraryList (directory.getD []) matchBlobHandler)

/-- The start as requests to the manager. -/
def registrations (clock : Clock) (directory : Option (List Path)) : List (Clock × ManagerCall H) :=
  (loaded libs made directory).map fun h => (clock, .registerHandler (some h))

theorem register_all (A : Answers H) (clock : Clock) (hs : List H) (w : World H) :
    Machine.run (step A) w (hs.map fun h => (clock, .registerHandler (some h))) =
      (hs.map fun h => ⟨clock, .registerHandler (some h), true, []⟩, w.register hs) := by
  induction hs generalizing w with
  | nil => simp [Machine.run, World.register]
  | cons h rest ih =>
    have first : step A w (clock, .registerHandler (some h)) =
        (⟨clock, .registerHandler (some h), true, []⟩, w.register [h]) := by
      simp [step, blobManager, BlobManager.registerHandler, World.register]
    simp only [List.map_cons, Machine.run, first, ih]
    simp [World.register]

/-- The world once the constructor has run, with a manager as getBlobManager makes it. -/
def started (A : Answers H) (clock : Clock) (directory : Option (List Path)) (sessionTimeout : Time)
    (next : UInt16) : Except Crash Unit × Loader H F :=
  (setupBlobGlobalHandler (managing A clock) (dlsys libs) (calling made) directory).run
    ⟨none, World.fresh sessionTimeout next, []⟩

theorem started_registers (A : Answers H) (clock : Clock) (directory : Option (List Path))
    (sessionTimeout : Time) (next : UInt16) :
    (started libs made A clock directory sessionTimeout next).1 = .ok () ∧
      (started libs made A clock directory sessionTimeout next).2.world =
        (history A sessionTimeout next (registrations libs made clock directory)).2 := by
  rw [history, registrations, register_all]
  cases directory with
  | none => exact ⟨rfl, by simp [loaded, getLibraryList, madeHandlers, factories, Firsts.firsts]; rfl⟩
  | some entries =>
    obtain ⟨pending, run⟩ := loadEach_run libs made A clock []
      (getLibraryList entries matchBlobHandler) ⟨none, World.fresh sessionTimeout next, []⟩
    have reached : started libs made A clock (some entries) sessionTimeout next = _ := run
    rw [reached, loaded, madeHandlers_along]
    exact ⟨rfl, rfl⟩

def daemon (generateCrc : List UInt8 → UInt16) (getChannelMaxTransferSize : UInt8 → Nat)
    (A : Answers H) (clock : Clock) (directory : Option (List Path)) (sessionTimeout : Time)
    (next : UInt16) (requests : List HostRequest) : List (Except Fault Resp) × World H :=
  Machine.run (exchange generateCrc getChannelMaxTransferSize A)
    (started libs made A clock directory sessionTimeout next).2.world requests

/-- Every run of the daemon is a run of the manager: the loaded handlers are registered, then
each accepted request makes its one call, and its reply is the encoding of the answer that
this run records. A refused request makes no call. Nothing faults. -/
theorem daemon_refines_manager (generateCrc : List UInt8 → UInt16)
    (getChannelMaxTransferSize : UInt8 → Nat) (A : Answers H) (clock : Clock)
    (directory : Option (List Path)) (sessionTimeout : Time) (next : UInt16)
    (requests : List HostRequest) :
    let run := daemon libs made generateCrc getChannelMaxTransferSize A clock directory sessionTimeout
      next requests
    ∃ parts : List (List (Clock × ManagerCall H) × List (Record H)),
      List.Forall₂ (Exchanged generateCrc getChannelMaxTransferSize) (requests.zip run.1) parts ∧
      history A sessionTimeout next
          (registrations libs made clock directory ++ (parts.map Prod.fst).flatten) =
        ((loaded libs made directory).map (fun h => ⟨clock, .registerHandler (some h), true, []⟩) ++
          (parts.map Prod.snd).flatten, run.2) := by
  intro run
  have start := (started_registers libs made A clock directory sessionTimeout next).2
  obtain ⟨parts, views, answers, final⟩ :=
    Machine.run_refines (exchange generateCrc getChannelMaxTransferSize A) (step A)
      (R := fun w v => w = v) (V := fun r reply asked records =>
        Exchanged generateCrc getChannelMaxTransferSize (r, reply) (asked, records))
      (fun w v r same => same ▸ exchange_matched generateCrc getChannelMaxTransferSize A w r) start requests
  refine ⟨parts, views, ?_⟩
  rw [history, Machine.run_append, ← history, answers, ← final, history, registrations, register_all]
  rfl

theorem started_fresh (A : Answers H) (clock : Clock) (directory : Option (List Path))
    (sessionTimeout : Time) (next : UInt16) :
    Sound (started libs made A clock directory sessionTimeout next).2.world ∧
      (started libs made A clock directory sessionTimeout next).2.world.calls = [] := by
  have start := (started_registers libs made A clock directory sessionTimeout next).2
  refine ⟨start ▸ history_sound A sessionTimeout next _, ?_⟩
  rw [start, history, registrations, register_all]
  rfl

theorem exchange_reached (generateCrc : List UInt8 → UInt16) (getChannelMaxTransferSize : UInt8 → Nat)
    (A : Answers H) {sessionTimeout : Time} {next : UInt16} {w : World H}
    (reached : ∃ asked, w = (history A sessionTimeout next asked).2) (r : HostRequest) :
    ∃ asked, (exchange generateCrc getChannelMaxTransferSize A w r).2 =
      (history A sessionTimeout next asked).2 := by
  obtain ⟨before, rfl⟩ := reached
  obtain ⟨asked, _, after⟩ := exchange_matched generateCrc getChannelMaxTransferSize A
    (history A sessionTimeout next before).2 r
  exact ⟨before ++ asked, after.trans (history_append A sessionTimeout next before asked).symm⟩

theorem daemon_reached (generateCrc : List UInt8 → UInt16) (getChannelMaxTransferSize : UInt8 → Nat)
    (A : Answers H) (clock : Clock) (directory : Option (List Path)) (sessionTimeout : Time)
    (next : UInt16) (requests : List HostRequest) :
    ∃ asked, (daemon libs made generateCrc getChannelMaxTransferSize A clock directory sessionTimeout
      next requests).2 = (history A sessionTimeout next asked).2 := by
  unfold daemon
  apply Machine.run_invariant (exchange generateCrc getChannelMaxTransferSize A)
    (fun w => ∃ asked, w = (history A sessionTimeout next asked).2)
  · intro w r reached
    exact exchange_reached generateCrc getChannelMaxTransferSize A reached r
  · exact ⟨_, (started_registers libs made A clock directory sessionTimeout next).2⟩

end Start

end PhosphorBlobs
