import PhosphorBlobs.Manager.Acts
import PhosphorBlobs.Lib.Machine

/-! What the manager is for, apart from its tables: a session is bound by the latest open
that a handler accepted, until a handler accepts its close or its expire. The tables of
every reachable state hold exactly these bindings. -/
namespace PhosphorBlobs

variable {H : Type}

/-- The sessions as the handlers know them, from their own answers alone. -/
def ledger (calls : List (Event H)) : SessionId → Option (Binding H) := Journal.replay lifecycle calls

/-- The latest accepted open, close or expire of the session is this open. -/
def StillOpen (calls : List (Event H)) (s : SessionId) (h : H) (flags : UInt16) (path : Path) : Prop :=
  Journal.latest lifecycle calls s = some ⟨h, .open s flags path, true⟩

theorem ledger_eq_some {calls : List (Event H)} {s : SessionId} {b : Binding H} :
    ledger calls s = some b ↔ StillOpen calls s b.handler b.flags b.path := by
  unfold ledger StillOpen
  rw [Journal.replay_eq_some_iff]
  constructor
  · rintro ⟨⟨h, call, answer⟩, last, write⟩
    rw [last]
    cases call with
    | «open» t flags path =>
      cases answer with
      | true => cases write; rfl
      | false => cases write
    | close t | expire t => cases answer <;> cases write
    | _ => cases write
  · intro last
    exact ⟨_, last, rfl⟩

def SessionInfo.binding (item : SessionInfo H) : Option (Binding H) :=
  item.handler.map fun h => ⟨h, item.flags, item.blobId⟩

def BlobManager.bound (m : BlobManager H) (s : SessionId) : Option (Binding H) :=
  (m.sessions.lookup s).bind SessionInfo.binding

theorem touch_bound {m : BlobManager H} {s : SessionId} {item : SessionInfo H}
    (known : m.sessions.lookup s = some item) (now : Time) (t : SessionId) :
    (m.touch now s item).bound t = m.bound t := by
  rw [BlobManager.bound, BlobManager.touch_lookup, BlobManager.bound]
  split
  · rename_i same
    rw [same, known]
    rfl
  · rfl

def Faithful (w : World H) : Prop := ∀ s, w.manager.bound s = ledger w.calls s

theorem Faithful.bound_iff {w : World H} (faithful : Faithful w) {s : SessionId} {h : H}
    {flags : UInt16} {path : Path} :
    (∃ item, w.manager.sessions.lookup s = some item ∧ item.handler = some h ∧
      item.flags = flags ∧ item.blobId = path) ↔ StillOpen w.calls s h flags path := by
  rw [← ledger_eq_some (b := ⟨h, flags, path⟩), ← faithful s, BlobManager.bound,
    Option.bind_eq_some_iff]
  constructor
  · rintro ⟨item, known, owner, rfl, rfl⟩
    exact ⟨item, known, by simp [SessionInfo.binding, owner]⟩
  · rintro ⟨item, known, bound⟩
    obtain ⟨g, owner, same⟩ := Option.map_eq_some_iff.mp bound
    cases same
    exact ⟨item, known, owner, rfl, rfl⟩

variable [DecidableEq H]

theorem Act.faithful {w v : World H} (act : Act w v) (faithful : Faithful w) : Faithful v := by
  intro s
  have before := faithful s
  cases act with
  | quiet quiet =>
    obtain ⟨same, events, calls, silent⟩ := quiet
    have idle : ∀ e ∈ events, lifecycle e = none := fun e he => lifecycle_unrelated (silent e he)
    rw [calls, ledger, Journal.replay_append, Journal.foldl_silent idle]
    rw [BlobManager.bound, same.sessions]
    exact before
  | @touch s' item known now =>
    rw [← before]
    exact touch_bound known now s
  | call idle =>
    rw [log_calls, ledger, Journal.replay_append, Journal.foldl_silent (by simpa using idle)]
    exact before
  | @free s' item e known owner ended =>
    have freed := BlobManager.eraseSession_sessions e.handler s' w.manager
    rw [ledger, Journal.replay_append, List.foldl_cons, List.foldl_nil, Journal.apply_write ended,
      Function.update_apply]
    simp only [BlobManager.bound, freed, Table.lookup_erase_if]
    split
    · rfl
    · exact before
  | @bind s' h flags unbound inside set now path =>
    have opened : lifecycle ⟨h, .open s' flags path, true⟩ = some (s', some ⟨h, flags, path⟩) := rfl
    rw [ledger, Journal.replay_append, List.foldl_cons, List.foldl_nil, Journal.apply_write opened,
      Function.update_apply]
    simp only [BlobManager.bound, BlobManager.associate_lookup]
    split
    · rfl
    · exact before

theorem Acts.faithful {w v : World H} (acts : Acts w v) (faithful : Faithful w) : Faithful v := by
  induction acts with
  | refl => exact faithful
  | tail _ last ih => exact last.faithful ih

theorem Act.calls {w v : World H} (act : Act w v) : ∃ events, v.calls = w.calls ++ events := by
  cases act with
  | quiet quiet => exact quiet.calls.imp fun _ h => h.1
  | touch known now => exact ⟨[], by simp⟩
  | call idle => exact ⟨_, rfl⟩
  | free known owner ended => exact ⟨_, rfl⟩
  | bind unbound inside set now path => exact ⟨_, rfl⟩

theorem Acts.calls {w v : World H} (acts : Acts w v) : ∃ events, v.calls = w.calls ++ events := by
  induction acts with
  | refl => exact ⟨[], by simp⟩
  | tail _ last ih =>
    obtain ⟨past, here⟩ := ih
    obtain ⟨more, there⟩ := last.calls
    exact ⟨past ++ more, by rw [there, here, List.append_assoc]⟩

structure Record (H : Type) where
  clock : Clock
  call : ManagerCall H
  answer : call.Answer
  calls : List (Event H)

def step (A : Answers H) (w : World H) (request : Clock × ManagerCall H) : Record H × World H :=
  let done := blobManager A request.1 request.2 w
  (⟨request.1, request.2, done.1, done.2.calls.drop w.calls.length⟩, done.2)

def World.fresh (sessionTimeout : Time) (next : UInt16) : World H := ⟨.fresh sessionTimeout next, []⟩

/-- A run of requests on a manager as constructed. -/
def history (A : Answers H) (sessionTimeout : Time) (next : UInt16)
    (requests : List (Clock × ManagerCall H)) : List (Record H) × World H :=
  Machine.run (step A) (World.fresh sessionTimeout next) requests

/-- What every reachable world satisfies. -/
structure Sound (w : World H) : Prop where
  tables : Tables w.manager
  faithful : Faithful w

theorem Sound.fresh (sessionTimeout : Time) (next : UInt16) :
    Sound (World.fresh sessionTimeout next : World H) :=
  ⟨.fresh sessionTimeout next, fun _ => rfl⟩

theorem Sound.acts {w v : World H} (sound : Sound w) (acts : Acts w v) : Sound v :=
  ⟨acts.tables sound.tables, acts.faithful sound.faithful⟩

theorem Sound.step {A : Answers H} {w : World H} (sound : Sound w) (request : Clock × ManagerCall H) :
    Sound (step A w request).2 :=
  sound.acts (request_acts A request.1 request.2 sound.tables)

theorem history_sound (A : Answers H) (sessionTimeout : Time) (next : UInt16)
    (requests : List (Clock × ManagerCall H)) : Sound (history A sessionTimeout next requests).2 :=
  Machine.run_invariant (PhosphorBlobs.step A) Sound (fun _ request sound => sound.step request)
    (.fresh sessionTimeout next) requests

theorem history_append (A : Answers H) (sessionTimeout : Time) (next : UInt16)
    (past more : List (Clock × ManagerCall H)) :
    (history A sessionTimeout next (past ++ more)).2 =
      (Machine.run (step A) (history A sessionTimeout next past).2 more).2 := by
  rw [history, Machine.run_append, history]

theorem history_concat (A : Answers H) (sessionTimeout : Time) (next : UInt16)
    (past : List (Clock × ManagerCall H)) (last : Clock × ManagerCall H) :
    (history A sessionTimeout next (past ++ [last])).2 =
      (step A (history A sessionTimeout next past).2 last).2 :=
  history_append A sessionTimeout next past [last]

theorem step_calls {A : Answers H} {w : World H} (sound : Sound w) (request : Clock × ManagerCall H) :
    (step A w request).2.calls = w.calls ++ (step A w request).1.calls := by
  obtain ⟨events, more⟩ := (request_acts A request.1 request.2 sound.tables).calls
  simp [PhosphorBlobs.step, more]

/-- A request on a session is forwarded to the handler of the session, or it is refused and
changes nothing. -/
theorem session_step {A : Answers H} {w : World H} (sound : Sound w) (clock : Clock)
    {call : ManagerCall H} {s : SessionId} {required : UInt16} {forwarded : HandlerCall}
    (shape : call.forward? = some (s, required, forwarded)) :
    (∃ item h reply, w.manager.Serves s required item h ∧
      step A w (clock, call) = (⟨clock, call, reply, [⟨h, forwarded, A h forwarded w.calls⟩]⟩,
        ⟨w.manager.settled clock.first s item ⟨h, forwarded, A h forwarded w.calls⟩,
          w.calls ++ [⟨h, forwarded, A h forwarded w.calls⟩]⟩)) ∨
    ∃ refusal, w.manager.Refuses s required ∧
      step A w (clock, call) = (⟨clock, call, refusal, []⟩, w) := by
  rcases sound.tables.serves_or_refuses s required with ⟨item, h, serves⟩ | refuses
  · obtain ⟨reply, run⟩ := session_served A shape
    refine .inl ⟨item, h, reply (A h forwarded w.calls), serves, ?_⟩
    simp [PhosphorBlobs.step, run clock w item h serves]
  · obtain ⟨refusal, run⟩ := session_refused A shape
    refine .inr ⟨refusal, refuses, ?_⟩
    simp [PhosphorBlobs.step, run clock w refuses]

theorem session_keeps {A : Answers H} {w : World H} (sound : Sound w) (clock : Clock)
    {call : ManagerCall H} {s : SessionId} {required : UInt16} {forwarded : HandlerCall}
    (shape : call.forward? = some (s, required, forwarded)) :
    (step A w (clock, call)).2.manager.handlers = w.manager.handlers ∧
      (step A w (clock, call)).2.manager.sessionTimeout = w.manager.sessionTimeout ∧
      (step A w (clock, call)).2.manager.ids = w.manager.ids ∧
      (step A w (clock, call)).2.manager.next = w.manager.next := by
  rcases session_step (A := A) sound clock shape with ⟨item, h, reply, _, stepped⟩ |
    ⟨refusal, _, stepped⟩
  · rw [stepped]
    exact w.manager.settled_keeps clock.first s item _
  · rw [stepped]
    exact ⟨rfl, rfl, rfl, rfl⟩

theorem open_step {A : Answers H} {w : World H} (sound : Sound w) (clock : Clock) (flags : UInt16)
    (path : Path) (session : Bool) :
    ∃ (answer : BlobManager.Opened) (calls : List (Event H)) (v : World H),
      step A w (clock, .open flags path session) = (⟨clock, .open flags path session, answer, calls⟩, v) ∧
      v.calls = w.calls ++ calls ∧
      BlobManager.OpenOutcome A w clock flags path session answer v :=
  ⟨_, _, _, rfl, step_calls (A := A) sound (clock, .open flags path session),
    BlobManager.open_outcome A clock flags path session w sound.tables.present⟩

theorem record_calls {A : Answers H} {w v : World H} {request : Clock × ManagerCall H}
    {events : List (Event H)} (reached : (step A w request).2 = v)
    (more : v.calls = w.calls ++ events) : (step A w request).1.calls = events := by
  have after : (blobManager A request.1 request.2 w).2 = v := reached
  simp [PhosphorBlobs.step, after, more]

end PhosphorBlobs
