import PhosphorBlobs.Example.Methods
import PhosphorBlobs.Lib.Object
import PhosphorBlobs.Manager.Lifetime
import PhosphorBlobs.Manager.Trace

/-! The example handler behind the manager. The manager keeps the promises that the handler
needs to know its sessions by its own table: the two never disagree, and what the handler
refuses in other circumstances is not asked of it. -/
namespace PhosphorBlobs

variable {H : Type} [DecidableEq H]

namespace ExampleBlobHandler

/-- The object behind a handler, as the calls of the record have left it. -/
def after (h : H) (stack : Nat → Buffer) (calls : List (Event H)) : ExampleBlobHandler :=
  Object.replay (fun e : Event H => decide (e.handler = h)) stack
    (fun garbage e x => (method garbage e.call x).2) ⟨∅⟩ calls

/-- The handler is an ExampleBlobHandler: its answers are those of the object. What a call
finds in the memory of a new buffer may be anything. -/
def Deployed (A : Answers H) (h : H) (stack : Nat → Buffer) : Prop :=
  ∀ call calls, (method (stack calls.length) call (after h stack calls)).1 = .ok (A h call calls)

theorem Deployed.answers {A : Answers H} {h : H} {stack : Nat → Buffer} (deployed : Deployed A h stack)
    {call : HandlerCall} {calls : List (Event H)} {answer : call.Answer} {x : ExampleBlobHandler}
    (run : method (stack calls.length) call (after h stack calls) = (.ok answer, x)) :
    A h call calls = answer := by
  have given := deployed call calls
  rw [run] at given
  exact (Except.ok.inj given).symm

theorem after_own (h : H) (stack : Nat → Buffer) (past : List (Event H)) (call : HandlerCall)
    (answer : call.Answer) : after h stack (past ++ [⟨h, call, answer⟩]) =
      (method (stack past.length) call (after h stack past)).2 := by
  rw [after, Object.replay_concat, if_pos (decide_eq_true rfl), after]

theorem after_foreign {h : H} {stack : Nat → Buffer} {past : List (Event H)} {e : Event H}
    (foreign : e.handler ≠ h) : after h stack (past ++ [e]) = after h stack past := by
  rw [after, Object.replay_concat, if_neg (by simpa using foreign), after]

end ExampleBlobHandler

open ExampleBlobHandler

def ExampleBlob.binding (h : H) (sess : ExampleBlob) : Binding H := ⟨h, sess.flags, supportedPath⟩

def Binding.ownedBy (h : H) (b : Binding H) : Bool := decide (b.handler = h)

@[simp] theorem filter_ownedBy (h : H) (b : Binding H) :
    (some b).filter (Binding.ownedBy h) = if b.handler = h then some b else none := by
  rw [Option.filter_some, Binding.ownedBy]
  by_cases own : b.handler = h
  · rw [if_pos own, if_pos (decide_eq_true own)]
  · rw [if_neg own, if_neg (by simpa using own)]

/-- The table of the object is the part of the ledger that is its own. -/
def InStep (h : H) (x : ExampleBlobHandler) (calls : List (Event H)) : Prop :=
  ∀ s, (x.sessions.lookup s).map (ExampleBlob.binding h) = (ledger calls s).filter (Binding.ownedBy h)

/-- The answers that the manager sees of the object, out of those it could give. -/
def Event.Agreed : Event H → Prop
  | ⟨_, .open .., answer⟩ | ⟨_, .close _, answer⟩ => answer = true
  | ⟨_, .expire _, answer⟩ | ⟨_, .commit .., answer⟩ | ⟨_, .writeMeta .., answer⟩
  | ⟨_, .deleteBlob _, answer⟩ => answer = false
  | ⟨_, .sessionStat _, answer⟩ => answer.isSome = true
  | _ => True

section Step

variable {A : Answers H} {h : H} {stack : Nat → Buffer} {past : List (Event H)} {e : Event H}

theorem InStep.known_iff {x : ExampleBlobHandler} (inStep : InStep h x past) (s : SessionId) :
    (∃ sess, x.sessions.lookup s = some sess) ↔ ∃ b, ledger past s = some b ∧ b.handler = h := by
  have same := inStep s
  constructor
  · rintro ⟨sess, known⟩
    rw [known, Option.map_some, eq_comm, Option.filter_eq_some_iff] at same
    exact ⟨_, same.1, rfl⟩
  · rintro ⟨b, bound, own⟩
    rw [bound, filter_ownedBy, if_pos own, Option.map_eq_some_iff] at same
    obtain ⟨sess, known, _⟩ := same
    exact ⟨sess, known⟩

omit [DecidableEq H] in
theorem Holds.known {required : UInt16} {s : SessionId} (holds : Holds past h s required) :
    ∃ b, ledger past s = some b ∧ b.handler = h := by
  obtain ⟨b, bound, own, _⟩ := holds
  exact ⟨b, bound, own⟩

theorem foreign_keeps (foreign : e.handler ≠ h) (allowed : Admissible past e) (s : SessionId) :
    (ledger (past ++ [e]) s).filter (Binding.ownedBy h) = (ledger past s).filter (Binding.ownedBy h) := by
  have unowned : ∀ (b : Binding H), b.handler ≠ h → (some b).filter (Binding.ownedBy h) = none :=
    fun b other => (filter_ownedBy h b).trans (if_neg other)
  rw [ledger, Journal.replay_concat]
  obtain ⟨g, call, answer⟩ := e
  cases call with
  | «open» t flags path =>
    cases answer with
    | false => rfl
    | true =>
      by_cases same : t = s
      · subst same
        have free : ledger past t = none := allowed.2.2
        rw [free, if_pos (by simp [lifecycle])]
        exact unowned ⟨g, flags, path⟩ foreign
      · rw [if_neg (by simp [lifecycle, same])]
        rfl
  | close t | expire t =>
    cases answer with
    | false => rfl
    | true =>
      by_cases same : t = s
      · subst same
        obtain ⟨b, bound, own⟩ := Holds.known allowed
        rw [bound, if_pos (by simp [lifecycle]), unowned b (own ▸ foreign)]
        rfl
      · rw [if_neg (by simp [lifecycle, same])]
        rfl
  | _ => rfl

theorem InStep.silent {x y : ExampleBlobHandler} (inStep : InStep h x past) (idle : lifecycle e = none)
    (same : ∀ s, (y.sessions.lookup s).map (ExampleBlob.binding h) =
      (x.sessions.lookup s).map (ExampleBlob.binding h)) : InStep h y (past ++ [e]) := by
  intro s
  rw [same, inStep s, ledger, ledger, Journal.replay_concat, idle]
  rfl

theorem claimed_supported {since : List (Event H)} {path : Path} (deployed : Deployed A h stack)
    (genuine : Genuine A past) (claimed : Claimed past since h path) : path = supportedPath := by
  obtain ⟨earlier, split⟩ := claimed
  have said : true = A h (.canHandleBlob path) earlier :=
    Trace.grown_iff_split.mp genuine earlier _ since split
  have claims : A h (.canHandleBlob path) earlier = (path == supportedPath) := deployed.answers rfl
  exact beq_iff_eq.mp (said.trans claims).symm

theorem open_in_step {t : SessionId} {flags : UInt16} {path : Path} (deployed : Deployed A h stack)
    (genuine : Genuine A past) (inStep : InStep h (after h stack past) past)
    (allowed : Admissible past ⟨h, .open t flags path, A h (.open t flags path) past⟩) :
    A h (.open t flags path) past = true ∧
      InStep h (after h stack (past ++ [⟨h, .open t flags path, true⟩]))
        (past ++ [⟨h, .open t flags path, true⟩]) := by
  obtain ⟨⟨since, claimed, _⟩, _, unbound⟩ := allowed
  have supported := claimed_supported deployed genuine claimed
  have free : (after h stack past).sessions.lookup t = none := by
    have same := inStep t
    rw [unbound] at same
    exact Option.map_eq_none_iff.mp same
  have run : method (stack past.length) (.open t flags path) (after h stack past) = _ :=
    (open_run flags path).trans (if_pos ⟨supported, free⟩)
  refine ⟨deployed.answers run, fun s => ?_⟩
  rw [after_own, run, ledger, Journal.replay_concat]
  simp only [Table.lookup_insert_if]
  by_cases same : s = t
  · subst same
    simp [lifecycle, ExampleBlob.binding, ExampleBlob.new, supported]
  · rw [if_neg same, inStep s, if_neg (by simpa [lifecycle] using Ne.symm same), ledger]

theorem close_in_step {t : SessionId} (deployed : Deployed A h stack)
    (inStep : InStep h (after h stack past) past)
    (allowed : Admissible past ⟨h, .close t, A h (.close t) past⟩) :
    A h (.close t) past = true ∧
      InStep h (after h stack (past ++ [⟨h, .close t, true⟩])) (past ++ [⟨h, .close t, true⟩]) := by
  obtain ⟨sess, known⟩ := (inStep.known_iff t).mpr (Holds.known allowed)
  have run : method (stack past.length) (.close t) (after h stack past) = _ :=
    close_run.trans (if_pos (Option.isSome_iff_exists.mpr ⟨sess, known⟩))
  refine ⟨deployed.answers run, fun s => ?_⟩
  rw [after_own, run, ledger, Journal.replay_concat]
  simp only [Table.lookup_erase_if]
  by_cases same : s = t
  · subst same
    simp [lifecycle]
  · rw [if_neg same, inStep s, if_neg (by simpa [lifecycle] using Ne.symm same), ledger]

omit [DecidableEq H] in
theorem write_binding (garbage : Buffer) (x : ExampleBlobHandler) (t : SessionId) (offset : UInt32)
    (data : List UInt8) (s : SessionId) :
    ((method garbage (.write t offset data) x).2.sessions.lookup s).map (ExampleBlob.binding h) =
      (x.sessions.lookup s).map (ExampleBlob.binding h) := by
  have unchanged : ∀ {answer}, method garbage (.write t offset data) x = (.ok answer, x) →
      ((method garbage (.write t offset data) x).2.sessions.lookup s).map (ExampleBlob.binding h) =
        (x.sessions.lookup s).map (ExampleBlob.binding h) := by
    intro answer run
    rw [run]
  cases known : x.sessions.lookup t with
  | none => exact unchanged (write_unknown known offset data)
  | some sess =>
    by_cases fits : offset.toNat < kBufferSize ∧ offset.toNat + data.length ≤ kBufferSize
    · obtain ⟨buffer, _, run⟩ := write_fits known fits.1 fits.2
      have stored : method garbage (.write t offset data) x = _ := run
      rw [stored]
      simp only [Table.lookup_insert_if]
      by_cases same : s = t
      · rw [if_pos same, same, known]
        rfl
      · rw [if_neg same]
    · exact unchanged (write_exceeds known fits)

theorem idle_in_step {call : HandlerCall} {answer : call.Answer}
    (inStep : InStep h (after h stack past) past) (idle : lifecycle ⟨h, call, answer⟩ = none)
    (same : (method (stack past.length) call (after h stack past)).2 = after h stack past) :
    InStep h (after h stack (past ++ [⟨h, call, answer⟩])) (past ++ [⟨h, call, answer⟩]) := by
  rw [after_own, same]
  exact inStep.silent idle fun _ => rfl

/-- A call of its own finds the object prepared: what it does to the sessions is what the
ledger makes of the answer. -/
theorem own_step (deployed : Deployed A h stack) (genuine : Genuine A past)
    (inStep : InStep h (after h stack past) past) (own : e.handler = h) (allowed : Admissible past e)
    (said : e.answer = A e.handler e.call past) :
    e.Agreed ∧ InStep h (after h stack (past ++ [e])) (past ++ [e]) := by
  obtain ⟨g, call, answer⟩ := e
  cases own
  obtain rfl : answer = A g call past := said
  cases call with
  | «open» t flags path =>
    obtain ⟨accepted, next⟩ := open_in_step deployed genuine inStep allowed
    rw [accepted]
    exact ⟨rfl, next⟩
  | close t =>
    obtain ⟨accepted, next⟩ := close_in_step deployed inStep allowed
    rw [accepted]
    exact ⟨rfl, next⟩
  | write t offset data =>
    refine ⟨trivial, inStep.silent rfl fun s => ?_⟩
    rw [after_own]
    exact write_binding _ _ t offset data s
  | expire t =>
    have run : method (stack past.length) (.expire t) (after g stack past) = _ := expire_run
    have refused := deployed.answers run
    rw [refused]
    exact ⟨rfl, idle_in_step inStep rfl (congrArg Prod.snd run)⟩
  | commit t data =>
    have run : method (stack past.length) (.commit t data) (after g stack past) = _ := commit_run data
    exact ⟨deployed.answers run, idle_in_step inStep rfl (congrArg Prod.snd run)⟩
  | sessionStat t =>
    obtain ⟨sess, known⟩ := (inStep.known_iff t).mpr (Holds.known allowed)
    have run : method (stack past.length) (.sessionStat t) (after g stack past) = _ := sessionStat_run
    refine ⟨?_, idle_in_step inStep rfl (congrArg Prod.snd run)⟩
    have told := deployed.answers run
    rw [known] at told
    exact congrArg Option.isSome told
  | read t offset size =>
    exact ⟨trivial, idle_in_step inStep rfl (method_idle _ _ nofun nofun nofun)⟩
  | deleteBlob _ | writeMeta _ _ _ =>
    exact ⟨deployed.answers rfl, idle_in_step inStep rfl rfl⟩
  | canHandleBlob _ | getBlobIds | stat _ => exact ⟨trivial, idle_in_step inStep rfl rfl⟩

theorem record_in_step (deployed : Deployed A h stack) {calls : List (Event H)}
    (genuine : Genuine A calls) (contract : Trace.Grown Admissible calls) :
    InStep h (after h stack calls) calls ∧ ∀ e ∈ calls, e.handler = h → e.Agreed := by
  induction contract with
  | nil => exact ⟨fun _ => rfl, nofun⟩
  | @snoc past e before allowed ih =>
    obtain ⟨earlier, said⟩ := genuine.last
    obtain ⟨inStep, agreed⟩ := ih earlier
    have kept : ∀ f ∈ past ++ [e], (f = e → e.handler = h → e.Agreed) → f.handler = h → f.Agreed := by
      intro f hf last own
      rcases List.mem_append.mp hf with inside | here
      · exact agreed f inside own
      · cases List.mem_singleton.mp here
        exact last rfl own
    by_cases own : e.handler = h
    · obtain ⟨agrees, next⟩ := own_step deployed earlier inStep own allowed said
      exact ⟨next, fun f hf => kept f hf fun _ _ => agrees⟩
    · refine ⟨fun s => ?_, fun f hf => kept f hf fun _ same => absurd same own⟩
      rw [after_foreign own, foreign_keeps own allowed]
      exact inStep s

end Step

section Runs

variable {A : Answers H} {h : H} {stack : Nat → Buffer}

theorem history_in_step (deployed : Deployed A h stack) (sessionTimeout : Time) (next : UInt16)
    (requests : List (Clock × ManagerCall H)) :
    let w := (history A sessionTimeout next requests).2
    InStep h (after h stack w.calls) w.calls ∧ ∀ e ∈ w.calls, e.handler = h → e.Agreed :=
  record_in_step deployed (history_genuine A sessionTimeout next requests)
    (history_contracted A sessionTimeout next requests)

/-- In every reachable state the handler's own table holds the sessions that the manager has
bound to it, under the flags of their opens. So each open and close and each stat of a session
that reaches it succeeds, and it never agrees to expire one. -/
theorem example_sessions_in_step (deployed : Deployed A h stack) (sessionTimeout : Time)
    (next : UInt16) (requests : List (Clock × ManagerCall H)) :
    let w := (history A sessionTimeout next requests).2
    (∀ s, ((after h stack w.calls).sessions.lookup s).map (ExampleBlob.binding h) =
      (w.manager.bound s).filter (Binding.ownedBy h)) ∧
    ∀ e ∈ w.calls, e.handler = h → e.Agreed := by
  intro w
  have sound : Sound w := history_sound A sessionTimeout next requests
  obtain ⟨inStep, agreed⟩ := history_in_step deployed sessionTimeout next requests
  refine ⟨fun s => ?_, agreed⟩
  rw [sound.faithful s]
  exact inStep s

def exampleOnly (stack : Nat → Buffer) : Answers Unit := fun h call calls =>
  (method (stack calls.length) call (after h stack calls)).1.toOption.get (by
    obtain ⟨answer, run⟩ := method_total (stack calls.length) call (after h stack calls)
    rw [run]
    rfl)

theorem exampleOnly_deployed (stack : Nat → Buffer) : Deployed (exampleOnly stack) () stack := by
  intro call calls
  obtain ⟨answer, run⟩ := method_total (stack calls.length) call (after () stack calls)
  simp only [exampleOnly, run]
  rfl

def zeroes : Buffer := ⟨List.replicate kBufferSize 0, List.length_replicate⟩

def exampleOpened : List (Clock × ManagerCall Unit) :=
  [(⟨0, 0⟩, .registerHandler (some ())), (⟨0, 0⟩, .open 3 supportedPath true)]

theorem example_sessions_in_step_open :
    let w := (history (exampleOnly fun _ => zeroes) 60 0 exampleOpened).2
    (∀ s, ((after () (fun _ => zeroes) w.calls).sessions.lookup s).map (ExampleBlob.binding ()) =
      (w.manager.bound s).filter (Binding.ownedBy ())) ∧
    ∀ e ∈ w.calls, e.handler = () → e.Agreed :=
  example_sessions_in_step (exampleOnly_deployed _) 60 0 exampleOpened

theorem Sound.bound_flags {w : World H} (sound : Sound w) {s : SessionId} {b : Binding H}
    (bound : w.manager.bound s = some b) : b.flags &&& BlobManager.anyFlags ≠ 0 := by
  obtain ⟨item, known, _, flags, _⟩ := BlobManager.bound_known bound
  have set := sound.tables.flagged s item known
  rw [flags] at set
  exact any_flag set

theorem bound_held (deployed : Deployed A h stack) {sessionTimeout : Time} {next : UInt16}
    {requests : List (Clock × ManagerCall H)} {s : SessionId} {b : Binding H}
    (bound : (history A sessionTimeout next requests).2.manager.bound s = some b)
    (own : b.handler = h) :
    (∃ sess, (after h stack (history A sessionTimeout next requests).2.calls).sessions.lookup s =
      some sess ∧ sess.flags = b.flags) ∧
    ∀ required, b.flags &&& required ≠ 0 →
      ∃ item, (history A sessionTimeout next requests).2.manager.Serves s required item h := by
  have sound := history_sound A sessionTimeout next requests
  obtain ⟨inStep, _⟩ := history_in_step deployed sessionTimeout next requests
  have held := inStep s
  rw [← sound.faithful s, bound, filter_ownedBy, if_pos own, Option.map_eq_some_iff] at held
  obtain ⟨sess, known, same⟩ := held
  obtain ⟨item, there, owner, flags, _⟩ := BlobManager.bound_known bound
  refine ⟨⟨sess, known, congrArg Binding.flags same⟩, fun required allowed => ⟨item, there, ?_, ?_⟩⟩
  · rw [owner, own]
  · rw [flags]
    exact allowed

theorem example_kept (deployed : Deployed A h stack) {sessionTimeout : Time} {next : UInt16}
    {past later : List (Clock × ManagerCall H)} {s : SessionId} {b : Binding H}
    (bound : (history A sessionTimeout next past).2.manager.bound s = some b) (own : b.handler = h)
    (unclosed : ∀ request ∈ later, request.2 ≠ .close s) :
    (history A sessionTimeout next (past ++ later)).2.manager.bound s = some b := by
  induction later using List.reverseRecOn with
  | nil => rwa [List.append_nil]
  | append_singleton front request ih =>
    have before := ih fun other inside => unclosed other (List.mem_append_left _ inside)
    have sound := history_sound A sessionTimeout next (past ++ front)
    have agreed := (history_in_step deployed sessionTimeout next (past ++ (front ++ [request]))).2
    rw [← List.append_assoc, history_concat] at agreed ⊢
    rcases binding_step (A := A) sound request before with kept | ⟨_, closed | expired⟩
    · exact kept
    · exact absurd (closed_names closed) (unclosed request (by simp))
    · have made : ⟨b.handler, .expire s, true⟩ ∈
          (step A (history A sessionTimeout next (past ++ front)).2 request).2.calls := by
        rw [step_calls sound]
        exact List.mem_append_right _ expired.agreed
      cases agreed _ made own

theorem example_close (deployed : Deployed A h stack) {sessionTimeout : Time} {next : UInt16}
    {requests : List (Clock × ManagerCall H)} {s : SessionId} {b : Binding H}
    (bound : (history A sessionTimeout next requests).2.manager.bound s = some b) (own : b.handler = h)
    (clock : Clock) :
    let w := (history A sessionTimeout next requests).2
    (blobManager A clock (.close s) w).1 = true ∧
      (blobManager A clock (.close s) w).2.manager.bound s = none := by
  intro w
  have sound : Sound w := history_sound A sessionTimeout next requests
  obtain ⟨⟨sess, known, _⟩, serving⟩ := bound_held deployed bound own
  obtain ⟨item, serves⟩ := serving BlobManager.anyFlags (sound.bound_flags bound)
  have closes : method (stack w.calls.length) (.close s) (after h stack w.calls) = _ :=
    close_run.trans (if_pos (Option.isSome_iff_exists.mpr ⟨sess, known⟩))
  have accepted : A h (.close s) w.calls = true := deployed.answers closes
  have run : blobManager A clock (.close s) w = _ := BlobManager.close_served serves
  rw [run, accepted]
  refine ⟨rfl, ?_⟩
  rw [BlobManager.bound, if_pos rfl, BlobManager.eraseSession_sessions, Finmap.lookup_erase]
  rfl

theorem example_sessions_last (deployed : Deployed A h stack) (sessionTimeout : Time) (next : UInt16)
    (past later : List (Clock × ManagerCall H)) (s : SessionId) (b : Binding H)
    (bound : (history A sessionTimeout next past).2.manager.bound s = some b) (own : b.handler = h)
    (unclosed : ∀ request ∈ later, request.2 ≠ .close s) :
    let w := (history A sessionTimeout next (past ++ later)).2
    w.manager.bound s = some b ∧ ∀ clock, (blobManager A clock (.close s) w).1 = true ∧
      (blobManager A clock (.close s) w).2.manager.bound s = none := by
  intro w
  have kept := example_kept deployed bound own unclosed
  exact ⟨kept, example_close deployed kept own⟩

theorem example_sessions_last_idle :
    let w := (history (exampleOnly fun _ => zeroes) 60 0
      (exampleOpened ++ [(⟨999, 999⟩, .open 3 supportedPath true)])).2
    w.manager.bound 0 = some ⟨(), 3, supportedPath⟩ ∧
      ∀ clock, (blobManager (exampleOnly fun _ => zeroes) clock (.close 0) w).1 = true ∧
        (blobManager (exampleOnly fun _ => zeroes) clock (.close 0) w).2.manager.bound 0 = none :=
  example_sessions_last (exampleOnly_deployed _) 60 0 exampleOpened
    [(⟨999, 999⟩, .open 3 supportedPath true)] 0 ⟨(), 3, supportedPath⟩ rfl rfl
    (fun request inside => by cases List.mem_singleton.mp inside; exact nofun)

end Runs

end PhosphorBlobs
