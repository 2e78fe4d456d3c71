import PhosphorBlobs.Manager.Allocation
import PhosphorBlobs.Manager.Expiry
import PhosphorBlobs.Manager.Isolation
import PhosphorBlobs.Wire.Replies

/-! A request on the manager itself, and what an error reply says about the sessions. -/
namespace PhosphorBlobs

variable {H : Type} [DecidableEq H]

/-- handleBlobCommand on the blob manager. -/
def serve (generateCrc : List UInt8 → UInt16) (A : Answers H) (clock : Clock) (cmd : UInt8)
    (body : List UInt8) (maxSize : Nat) (w : World H) : Except Fault Resp × World H :=
  (handleBlobCommand generateCrc cmd (blobManager A clock) body maxSize).run w

variable {generateCrc : List UInt8 → UInt16} {cmd : UInt8} {body : List UInt8}

theorem serve_accepts {request : Request} (accepts : Accepts generateCrc cmd body request)
    (A : Answers H) (clock : Clock) (maxSize : Nat) (w : World H) :
    serve generateCrc A clock cmd body maxSize w =
      (.ok ((request.reply (blobManager A clock (request.call H) w).1).sent generateCrc maxSize),
        (blobManager A clock (request.call H) w).2) := by
  rw [serve, handle_accepts accepts]
  rfl

theorem serve_cases (generateCrc : List UInt8 → UInt16) (A : Answers H) (clock : Clock)
    (cmd : UInt8) (body : List UInt8) (maxSize : Nat) (w : World H) :
    (∃ request, Accepts generateCrc cmd body request ∧
      serve generateCrc A clock cmd body maxSize w =
        (.ok ((request.reply (blobManager A clock (request.call H) w).1).sent generateCrc maxSize),
          (blobManager A clock (request.call H) w).2)) ∨
    ∃ cc, cc ≠ Cc.success ∧ serve generateCrc A clock cmd body maxSize w = (.ok ⟨cc, none⟩, w) := by
  by_cases some : ∃ request, Accepts generateCrc cmd body request
  · obtain ⟨request, accepts⟩ := some
    exact .inl ⟨request, accepts, serve_accepts accepts A clock maxSize w⟩
  · obtain ⟨cc, failed, refused⟩ := handle_refuses (H := H) (m := OnWorld H) (not_exists.mp some)
    refine .inr ⟨cc, failed, ?_⟩
    rw [serve, refused]
    rfl

/-- No call that can open or expire a session. -/
def Calm (calls : List (Event H)) : Prop :=
  ∀ e ∈ calls, (∀ s, e.call ≠ .expire s) ∧ ∀ s flags path, e.call ≠ .open s flags path

omit [DecidableEq H] in
theorem Calm.of_silent {calls : List (Event H)} (silent : ∀ e ∈ calls, e.call.session? = none) :
    Calm calls := by
  intro e he
  have free := silent e he
  refine ⟨fun s expires => ?_, fun s flags path opens => ?_⟩
  · rw [expires] at free
    cases free
  · rw [opens] at free
    cases free

omit [DecidableEq H] in
theorem Calm.of_forward {call : ManagerCall H} {s : SessionId} {required : UInt16}
    {forwarded : HandlerCall} (shape : call.forward? = some (s, required, forwarded)) (h : H)
    (answer : forwarded.Answer) : Calm [⟨h, forwarded, answer⟩] := by
  intro e he
  rw [List.mem_singleton.mp he]
  cases call <;> cases shape <;> exact ⟨nofun, nofun⟩

omit [DecidableEq H] in
theorem closed_succeeds {request : Request} {clock : Clock} {answer : (request.call H).Answer}
    {calls : List (Event H)} {s : SessionId}
    (closed : Record.closed? ⟨clock, request.call H, answer, calls⟩ = some s) (maxSize : Nat) :
    (request.reply answer).sent generateCrc maxSize = responseSuccess [] := by
  cases request with
  | close t =>
    cases (answer : Bool) with
    | true => rfl
    | false => cases closed
  | _ => cases closed

variable {A : Answers H} {w : World H}

theorem session_calm (sound : Sound w) (clock : Clock) {call : ManagerCall H} {s : SessionId}
    {required : UInt16} {forwarded : HandlerCall}
    (shape : call.forward? = some (s, required, forwarded)) :
    Calm (step A w (clock, call)).1.calls := by
  rcases session_step (A := A) sound clock shape with ⟨item, h, reply, _, stepped⟩ |
    ⟨refusal, _, stepped⟩
  · rw [stepped]
    exact .of_forward shape h (A h forwarded w.calls)
  · rw [stepped]
    exact nofun

theorem session_error (sound : Sound w) (clock : Clock) {request : Request} {s : SessionId}
    {required : UInt16} {forwarded : HandlerCall} {maxSize : Nat}
    (shape : (request.call H).forward? = some (s, required, forwarded))
    (failed : ((request.reply (blobManager A clock (request.call H) w).1).sent generateCrc
      maxSize).cc ≠ .success) (t : SessionId) :
    (step A w (clock, request.call H)).2.manager.bound t = w.manager.bound t := by
  rcases session_step (A := A) sound clock shape with ⟨item, h, reply, serves, stepped⟩ |
    ⟨refusal, _, stepped⟩
  · have closed := served_closed (A := A) clock shape serves
    have unended : (⟨h, forwarded, A h forwarded w.calls⟩ : Event H).ends = false := by
      cases ended : (⟨h, forwarded, A h forwarded w.calls⟩ : Event H).ends with
      | false => rfl
      | true =>
        rw [ended, if_pos rfl] at closed
        exact absurd (congrArg Resp.cc (closed_succeeds closed maxSize)) failed
    rw [stepped, BlobManager.settled, unended, if_neg Bool.false_ne_true]
    exact touch_bound serves.known clock.first t
  · rw [stepped]

theorem quiet_bound {clock : Clock} {call : ManagerCall H} (free : call.forward? = none)
    (unopened : ∀ flags path session, call ≠ .open flags path session) (t : SessionId) :
    (step A w (clock, call)).2.manager.bound t = w.manager.bound t := by
  have kept : (step A w (clock, call)).2.manager.sessions = w.manager.sessions :=
    (quiet_request A clock free unopened w).same.sessions
  rw [BlobManager.bound, kept, BlobManager.bound]

/-- Apart from an open, no request that is answered with an error changes a session. -/
theorem open_or_calm (generateCrc : List UInt8 → UInt16) (sound : Sound w) (clock : Clock)
    (request : Request) :
    (∃ flags path, request = .open flags path) ∨
    Calm (step A w (clock, request.call H)).1.calls ∧
      ∀ maxSize, ((request.reply (blobManager A clock (request.call H) w).1).sent generateCrc
        maxSize).cc ≠ .success → ∀ t,
          (step A w (clock, request.call H)).2.manager.bound t = w.manager.bound t := by
  rcases (request.call H).kinds with ⟨s, required, forwarded, shape⟩ | ⟨_, _, _, opens⟩ |
    ⟨free, unopened⟩
  · exact .inr ⟨session_calm sound clock shape,
      fun _ failed t => session_error sound clock shape failed t⟩
  · cases request with
    | «open» flags path => exact .inl ⟨flags, path, rfl⟩
    | _ => cases opens
  · exact .inr ⟨.of_silent (quiet_record clock free unopened),
      fun _ _ t => quiet_bound free unopened t⟩

/-- What becomes of the sessions in one open, told from its calls. -/
structure OpenReport (w : World H) (clock : Clock) (calls : List (Event H))
    (answer : BlobManager.Opened) (v : World H) : Prop where
  expired : ∀ s h, ⟨h, .expire s, true⟩ ∈ calls → v.manager.bound s = none ∧
    (∃ path, ⟨h, .canHandleBlob path, true⟩ ∈ calls) ∧
    ∃ item, w.manager.sessions.lookup s = some item ∧ item.handler = some h ∧
      clock.first - item.lastActionTime ≥ w.manager.sessionTimeout
  opened : ∀ s h flags path, ⟨h, .open s flags path, true⟩ ∈ calls → answer = .opened s ∧
    w.manager.bound s = none ∧ v.manager.bound s = some ⟨h, flags, path⟩
  kept : ∀ s, (∀ h, ⟨h, .expire s, true⟩ ∉ calls) →
    (∀ h flags path, ⟨h, .open s flags path, true⟩ ∉ calls) → v.manager.bound s = w.manager.bound s

omit [DecidableEq H] in
theorem OpenReport.calm {v : World H} {clock : Clock} {calls : List (Event H)}
    {answer : BlobManager.Opened} (calm : Calm calls)
    (same : ∀ s, v.manager.bound s = w.manager.bound s) : OpenReport w clock calls answer v where
  expired := fun s _ expired => absurd rfl ((calm _ expired).1 s)
  opened := fun s _ flags path opened => absurd rfl ((calm _ opened).2 s flags path)
  kept := fun s _ _ => same s

omit [DecidableEq H] in
theorem tried_effects {probes : List (Event H)} (calm : Calm probes) (h : H)
    (answered : List (SessionId × Bool)) (id : SessionId) (flags : UInt16) (path : Path)
    (accepted : Bool) :
    (∀ s g, ⟨g, .expire s, true⟩ ∈
        probes ++ answered.map (BlobManager.expiry h) ++ [⟨h, .open id flags path, accepted⟩] ↔
      g = h ∧ (s, true) ∈ answered) ∧
    (∀ s g f p, ⟨g, .open s f p, true⟩ ∈
        probes ++ answered.map (BlobManager.expiry h) ++ [⟨h, .open id flags path, accepted⟩] ↔
      g = h ∧ s = id ∧ f = flags ∧ p = path ∧ accepted = true) := by
  refine ⟨fun s g => ⟨?_, ?_⟩, fun s g f p => ⟨?_, ?_⟩⟩
  · intro inside
    rcases List.mem_append.mp inside with inside | last
    · rcases List.mem_append.mp inside with probed | expired
      · exact absurd rfl ((calm _ probed).1 s)
      · obtain ⟨⟨t, b⟩, there, same⟩ := List.mem_map.mp expired
        cases same
        exact ⟨rfl, there⟩
    · cases List.mem_singleton.mp last
  · rintro ⟨rfl, there⟩
    have mapped : ⟨g, .expire s, true⟩ ∈ answered.map (BlobManager.expiry g) :=
      List.mem_map_of_mem (f := BlobManager.expiry g) there
    simp [mapped]
  · intro inside
    rcases List.mem_append.mp inside with inside | last
    · rcases List.mem_append.mp inside with probed | expired
      · exact absurd rfl ((calm _ probed).2 s f p)
      · obtain ⟨a, _, same⟩ := List.mem_map.mp expired
        cases same
    · cases List.mem_singleton.mp last
      exact ⟨rfl, rfl, rfl, rfl, rfl⟩
  · rintro ⟨rfl, rfl, rfl, rfl, rfl⟩
    simp

theorem open_report (sound : Sound w) {v : World H} {clock : Clock} {flags : UInt16} {path : Path}
    {session : Bool} {answer : BlobManager.Opened} {calls : List (Event H)}
    (more : v.calls = w.calls ++ calls)
    (outcome : BlobManager.OpenOutcome A w clock flags path session answer v) :
    OpenReport w clock calls answer v := by
  have spent := BlobManager.getSession_sessions session w.manager
  have issue : ∀ s, (BlobManager.getSession session w.manager).2.bound s = w.manager.bound s := by
    intro s
    rw [BlobManager.bound, spent, BlobManager.bound]
  have probing : ∀ {probes : List (Event H)} {found : Option H},
      Routed A path w.calls w.manager.handlers probes found → Calm probes :=
    fun routed => .of_silent routed.silent
  cases outcome with
  | noHandler routed =>
    rw [← List.append_cancel_left more]
    exact .calm (probing routed) fun _ => rfl
  | noSession routed exhausted =>
    rw [← List.append_cancel_left more]
    exact .calm (probing routed) issue
  | noFlags routed issued unset =>
    rw [← List.append_cancel_left more]
    exact .calm (probing routed) issue
  | @tried probes h id answered accepted routed issued set once exact =>
    have made := BlobManager.tried_calls more
    obtain ⟨expires, opens⟩ := tried_effects (probing routed) h answered id flags path accepted
    have free : w.manager.sessions.lookup id = none := BlobManager.getSession_free issued
    have stale : ∀ s, (s, true) ∈ answered → ∃ item, w.manager.sessions.lookup s = some item ∧
        item.handler = some h ∧ clock.first - item.lastActionTime ≥ w.manager.sessionTimeout := by
      intro s expired
      obtain ⟨held, due⟩ := (exact s).mp (List.mem_map_of_mem expired)
      obtain ⟨item, known, owner⟩ := (sound.tables.held h s).mp held
      obtain ⟨other, also, since⟩ := due
      rw [known] at also
      cases also
      exact ⟨item, known, owner, since⟩
    have lookup := BlobManager.offered_lookup issued clock.second h flags path answered accepted
    constructor
    · intro s g expired
      rw [made, expires] at expired
      obtain ⟨rfl, expired⟩ := expired
      obtain ⟨item, known, owner, since⟩ := stale s expired
      obtain ⟨passed, rest, _, asked⟩ := routed.first
      have other : s ≠ id := by
        rintro rfl
        rw [free] at known
        cases known
      refine ⟨?_, ⟨path, by simp [made, asked]⟩, item, known, owner, since⟩
      rw [BlobManager.bound, lookup, if_neg other, if_pos expired]
      rfl
    · intro s g f p opened
      rw [made, opens] at opened
      obtain ⟨rfl, rfl, rfl, rfl, rfl⟩ := opened
      refine ⟨rfl, ?_, ?_⟩
      · rw [BlobManager.bound, free]
        rfl
      · rw [BlobManager.bound, lookup, if_pos rfl, if_pos rfl]
        rfl
    · intro s unexpired unopened
      have survives : (s, true) ∉ answered := by
        intro expired
        exact unexpired h (made ▸ (expires s h).mpr ⟨rfl, expired⟩)
      refine congrArg (Option.bind · SessionInfo.binding) ((lookup s).trans ?_)
      by_cases same : s = id
      · have refused : ¬ accepted = true := by
          intro yes
          apply unopened h flags path
          rw [made]
          exact (opens s h flags path).mpr ⟨rfl, same, rfl, rfl, yes⟩
        rw [if_pos same, if_neg refused, same, free]
      · rw [if_neg same, if_neg survives]

/-- What an error reply leaves of the sessions. Stale ones of the handler that an open was
routed to may be gone. A session opened by the request is left only when its id did not fit
into the reply; it is delivered whenever it fits. -/
theorem error_reply_sessions (generateCrc : List UInt8 → UInt16) (A : Answers H)
    (sessionTimeout : Time) (next : UInt16) (requests : List (Clock × ManagerCall H)) (clock : Clock)
    (cmd : UInt8) (body : List UInt8) (maxSize : Nat) :
    let w := (history A sessionTimeout next requests).2
    let done := serve generateCrc A clock cmd body maxSize w
    ∃ result calls, done.1 = .ok result ∧ done.2.calls = w.calls ++ calls ∧
      (∀ s h flags path, ⟨h, .open s flags path, true⟩ ∈ calls → cmd = 2 ∧
        Carries generateCrc maxSize result (le16 s) ∧ w.manager.bound s = none ∧
        done.2.manager.bound s = some ⟨h, flags, path⟩) ∧
      (result.cc ≠ .success →
        (∀ s h, ⟨h, .expire s, true⟩ ∈ calls → done.2.manager.bound s = none ∧ cmd = 2 ∧
          (∃ path, ⟨h, .canHandleBlob path, true⟩ ∈ calls) ∧
          ∃ item, w.manager.sessions.lookup s = some item ∧ item.handler = some h ∧
            clock.first - item.lastActionTime ≥ sessionTimeout) ∧
        (∀ s h flags path, ⟨h, .open s flags path, true⟩ ∈ calls → maxSize < 4) ∧
        (∀ s, (∀ h, ⟨h, .expire s, true⟩ ∉ calls) →
          (∀ h flags path, ⟨h, .open s flags path, true⟩ ∉ calls) →
          done.2.manager.bound s = w.manager.bound s)) := by
  intro w done
  have sound : Sound w := history_sound A sessionTimeout next requests
  have timeout : w.manager.sessionTimeout = sessionTimeout :=
    history_sessionTimeout A sessionTimeout next requests
  rcases serve_cases generateCrc A clock cmd body maxSize w with
    ⟨request, accepts, run⟩ | ⟨cc, _, run⟩
  · have reached : done.2 = (step A w (clock, request.call H)).2 := congrArg Prod.snd run
    have more := step_calls (A := A) sound (clock, request.call H)
    refine ⟨_, (step A w (clock, request.call H)).1.calls, congrArg Prod.fst run,
      by rw [reached, more], ?_⟩
    rw [reached]
    rcases open_or_calm (A := A) generateCrc sound clock request with
      ⟨flags, path, rfl⟩ | ⟨calm, same⟩
    · have cmd_open : cmd = 2 := ofByte_code.mp (accepts.command (H := H)).symm
      have report := open_report sound more
        (BlobManager.open_outcome A clock flags path true w sound.tables.present)
      have delivered : ∀ s, (BlobManager.open A clock flags path true w).1 = .opened s →
          Carries generateCrc maxSize (((Request.open flags path).reply
            (blobManager A clock ((Request.open flags path).call H) w).1).sent generateCrc maxSize)
            (le16 s) := by
        intro s issued
        have answered : (blobManager A clock ((Request.open flags path).call H) w).1 =
          BlobManager.Opened.opened s := issued
        rw [answered]
        exact sent_carries (le16 s)
      refine ⟨?_, fun failed => ⟨?_, ?_, report.kept⟩⟩
      · intro s h f p opened
        obtain ⟨issued, before, bound⟩ := report.opened s h f p opened
        exact ⟨cmd_open, delivered s issued, before, bound⟩
      · intro s h expired
        obtain ⟨gone, routed, stale⟩ := report.expired s h expired
        exact ⟨gone, cmd_open, routed, timeout ▸ stale⟩
      · intro s h f p opened
        by_contra room
        have fits := (delivered s (report.opened s h f p opened).1).1
          (by rw [length_le16]; omega)
        exact failed (congrArg Resp.cc fits)
    · refine ⟨fun t h flags path opened => absurd rfl ((calm _ opened).2 t flags path), ?_⟩
      intro failed
      exact ⟨fun t _ expired => absurd rfl ((calm _ expired).1 t),
        fun t _ flags path opened => absurd rfl ((calm _ opened).2 t flags path),
        fun t _ _ => same maxSize failed t⟩
  · have reached : done.2 = w := congrArg Prod.snd run
    refine ⟨_, [], congrArg Prod.fst run, by rw [reached, List.append_nil], nofun, fun _ => ?_⟩
    exact ⟨nofun, nofun, fun s _ _ => by rw [reached]⟩

theorem undelivered_open_stays :
    ¬ ∀ (generateCrc : List UInt8 → UInt16) (A : Answers Unit) (sessionTimeout : Time)
      (next : UInt16) (requests : List (Clock × ManagerCall Unit)) (clock : Clock) (cmd : UInt8)
      (body : List UInt8) (maxSize : Nat) (result : Resp),
      let w := (history A sessionTimeout next requests).2
      let done := serve generateCrc A clock cmd body maxSize w
      done.1 = .ok result → result.cc ≠ .success → ∀ s,
        done.2.manager.bound s = w.manager.bound s ∨
          ∃ h, ⟨h, .expire s, true⟩ ∈ done.2.calls := by
  intro leaves
  rcases leaves (fun _ => 0) willing 60 0 [(⟨0, 0⟩, .registerHandler (some ()))] ⟨1, 1⟩ 2
    [0, 0, 1, 0, 97, 0] 3 responseResponseError rfl (by decide) 0 with same | ⟨h, expired⟩
  · cases same
  · have made : ⟨h, .expire 0, true⟩ ∈ [(⟨(), .canHandleBlob [97], true⟩ : Event Unit),
      ⟨(), .open 0 1 [97], true⟩] := expired
    simp at made

end PhosphorBlobs
