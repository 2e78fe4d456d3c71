import PhosphorBlobs.Manager

/-! What each manager request can do, said once. Later modules use these outcomes and do
not unfold the request again. -/
namespace PhosphorBlobs

variable {H : Type}

/- These are proved by a tactic, not by the term rfl, so that simp also rewrites the
decidability instance of an if when it rewrites its condition. -/
@[simp] theorem bind_apply {σ α β : Type} (x : StateM σ α) (f : α → StateM σ β) (s : σ) :
    (x >>= f) s = f (x s).1 (x s).2 := by rfl

@[simp] theorem map_apply {σ α β : Type} (f : α → β) (x : StateM σ α) (s : σ) :
    (f <$> x) s = (f (x s).1, (x s).2) := by rfl

@[simp] theorem pure_apply {σ α : Type} (a : α) (s : σ) : (pure a : StateM σ α) s = (a, s) := by rfl

@[simp] theorem get_apply {σ : Type} (s : σ) : (get : StateM σ σ) s = (s, s) := by rfl

/-- The world after some handler calls that leave the manager alone. -/
def World.log (w : World H) (events : List (Event H)) : World H :=
  { w with calls := w.calls ++ events }

@[simp] theorem log_manager (w : World H) (es : List (Event H)) : (w.log es).manager = w.manager := rfl
@[simp] theorem log_calls (w : World H) (es : List (Event H)) : (w.log es).calls = w.calls ++ es := rfl
@[simp] theorem log_nil (w : World H) : w.log [] = w := by simp [World.log]
@[simp] theorem log_log (w : World H) (es fs : List (Event H)) :
    (w.log es).log fs = w.log (es ++ fs) := by simp [World.log]

@[simp] theorem invoke_apply (A : Answers H) (h : H) (call : HandlerCall) (w : World H) :
    invoke A h call w = (A h call w.calls, w.log [⟨h, call, A h call w.calls⟩]) := by rfl

@[simp] theorem onManager_apply {α : Type} (f : OnManager H α) (w : World H) :
    onManager f w = ((f w.manager).1, ⟨(f w.manager).2, w.calls⟩) := by rfl

/-- The canHandleBlob calls of one request: each handler in registration order is asked
until one claims the path. -/
inductive Routed (A : Answers H) (path : Path) :
    List (Event H) → List H → List (Event H) → Option H → Prop where
  | exhausted (calls : List (Event H)) : Routed A path calls [] [] none
  | claims {calls : List (Event H)} {h : H} (said : A h (.canHandleBlob path) calls = true)
      (rest : List H) :
      Routed A path calls (h :: rest) [⟨h, .canHandleBlob path, true⟩] (some h)
  | passes {calls : List (Event H)} {h : H} (said : A h (.canHandleBlob path) calls = false)
      {rest : List H} {probes : List (Event H)} {found : Option H}
      (later : Routed A path (calls ++ [⟨h, .canHandleBlob path, false⟩]) rest probes found) :
      Routed A path calls (h :: rest) (⟨h, .canHandleBlob path, false⟩ :: probes) found

theorem findHandler_routed (A : Answers H) (path : Path) (hs : List H) (w : World H) :
    ∃ probes, Routed A path w.calls hs probes (BlobManager.findHandler A path hs w).1 ∧
      (BlobManager.findHandler A path hs w).2 = w.log probes := by
  induction hs generalizing w with
  | nil => exact ⟨[], .exhausted w.calls, (log_nil w).symm⟩
  | cons h rest ih =>
    rcases Bool.eq_false_or_eq_true (A h (.canHandleBlob path) w.calls) with said | said
    · simp only [BlobManager.findHandler, bind_apply, invoke_apply, said, if_true]
      exact ⟨_, .claims said rest, rfl⟩
    · simp only [BlobManager.findHandler, bind_apply, invoke_apply, said, Bool.false_eq_true,
        if_false]
      obtain ⟨probes, routed, after⟩ := ih (w.log [⟨h, .canHandleBlob path, false⟩])
      exact ⟨_, .passes said routed, by simpa using after⟩

theorem getHandler_routed (A : Answers H) (path : Path) (w : World H) :
    ∃ probes, Routed A path w.calls w.manager.handlers probes (BlobManager.getHandler A path w).1 ∧
      (BlobManager.getHandler A path w).2 = w.log probes :=
  findHandler_routed A path w.manager.handlers w

theorem Routed.first {A : Answers H} {path : Path} {calls probes : List (Event H)} {hs : List H}
    {h : H} (routed : Routed A path calls hs probes (some h)) :
    ∃ before after, hs = before ++ h :: after ∧
      probes = before.map (fun g => ⟨g, .canHandleBlob path, false⟩) ++
        [⟨h, .canHandleBlob path, true⟩] := by
  generalize found : some h = target at routed
  induction routed with
  | exhausted => cases found
  | claims said rest => cases found; exact ⟨[], rest, rfl, rfl⟩
  | @passes _ g said _ _ _ _ ih =>
    obtain ⟨before, after, split, asked⟩ := ih found
    exact ⟨g :: before, after, by simp [split], by simp [asked]⟩

theorem Routed.nobody {A : Answers H} {path : Path} {calls probes : List (Event H)} {hs : List H}
    (routed : Routed A path calls hs probes none) :
    probes = hs.map fun g => ⟨g, .canHandleBlob path, false⟩ := by
  generalize found : (none : Option H) = target at routed
  induction routed with
  | exhausted => rfl
  | claims said rest => cases found
  | passes said _ ih => simp [ih found]

theorem Routed.registered {A : Answers H} {path : Path} {calls probes : List (Event H)} {hs : List H}
    {h : H} (routed : Routed A path calls hs probes (some h)) : h ∈ hs := by
  obtain ⟨before, after, split, _⟩ := routed.first
  simp [split]

theorem Routed.said {A : Answers H} {path : Path} {calls probes : List (Event H)} {hs : List H}
    {h : H} (routed : Routed A path calls hs probes (some h)) :
    ∃ past, A h (.canHandleBlob path) past = true := by
  generalize found : some h = target at routed
  induction routed with
  | exhausted => cases found
  | @claims past g said rest => cases found; exact ⟨past, said⟩
  | passes _ _ ih => exact ih found

theorem Routed.asks {A : Answers H} {path : Path} {calls probes : List (Event H)} {hs : List H}
    {found : Option H} (routed : Routed A path calls hs probes found) :
    ∀ e ∈ probes, e.call = .canHandleBlob path := by
  induction routed with
  | exhausted => simp
  | claims said rest => simp
  | passes said _ ih => simpa using ih

theorem Routed.silent {A : Answers H} {path : Path} {calls probes : List (Event H)} {hs : List H}
    {found : Option H} (routed : Routed A path calls hs probes found) :
    ∀ e ∈ probes, e.call.session? = none := by
  intro e he
  rw [routed.asks e he]
  rfl

theorem Routed.unique {A : Answers H} {path : Path} {calls probes others : List (Event H)}
    {hs : List H} {found also : Option H} (routed : Routed A path calls hs probes found)
    (again : Routed A path calls hs others also) : found = also := by
  induction routed generalizing others with
  | exhausted => cases again; rfl
  | claims said rest =>
    cases again with
    | claims _ _ => rfl
    | passes no _ => rw [said] at no; cases no
  | passes said _ ih =>
    cases again with
    | claims yes _ => rw [said] at yes; cases yes
    | passes _ later => exact ih later

theorem getHandler_iff {A : Answers H} {path : Path} {w : World H} {found : Option H} :
    (BlobManager.getHandler A path w).1 = found ↔
      ∃ probes, Routed A path w.calls w.manager.handlers probes found := by
  obtain ⟨probes, routed, _⟩ := getHandler_routed A path w
  constructor
  · rintro rfl
    exact ⟨probes, routed⟩
  · rintro ⟨others, also⟩
    exact routed.unique also

theorem Routed.undeleted {A : Answers H} {path : Path} {calls probes : List (Event H)} {hs : List H}
    {found : Option H} (routed : Routed A path calls hs probes found) (h : H) (deleted : Bool) :
    ⟨h, .deleteBlob path, deleted⟩ ∉ probes := by
  intro call
  cases routed.asks _ call

namespace BlobManager

/-- openSessions[handler], an absent key read as the empty set. -/
def heldBy [DecidableEq H] (m : BlobManager H) (h : H) : OrderedSet SessionId := (m.openSessions.lookup h).getD ∅

/-- openFiles[path], an absent key read as zero. -/
def openCount (m : BlobManager H) (path : Path) : Int := (m.openFiles.lookup path).getD 0

def touch (now : Time) (session : SessionId) (item : SessionInfo H) (m : BlobManager H) :
    BlobManager H :=
  { m with sessions := m.sessions.insert session { item with lastActionTime := now } }

structure Serves (m : BlobManager H) (session : SessionId) (required : UInt16)
    (item : SessionInfo H) (h : H) : Prop where
  known : m.sessions.lookup session = some item
  owner : item.handler = some h
  allowed : item.flags &&& required ≠ 0

def Refuses (m : BlobManager H) (session : SessionId) (required : UInt16) : Prop :=
  ∀ item, m.sessions.lookup session = some item → item.flags &&& required = 0

theorem getActionHandler_served {m : BlobManager H} {session : SessionId} {required : UInt16}
    {item : SessionInfo H} {h : H} (serves : m.Serves session required item h) (now : Time) :
    getActionHandler now session required m = (some h, m.touch now session item) := by
  simp [getActionHandler, serves.known, serves.owner, serves.allowed, touch]

theorem getActionHandler_refused {m : BlobManager H} {session : SessionId} {required : UInt16}
    (refuses : m.Refuses session required) (now : Time) :
    getActionHandler now session required m = (none, m) := by
  unfold getActionHandler
  split
  · rfl
  · rename_i item known
    rw [if_pos (refuses item known)]

theorem onSession_served {A : Answers H} {clock : Clock} {w : World H} {session : SessionId}
    {required : UInt16} {item : SessionInfo H} {h : H} (call : HandlerCall) (refusal : call.Answer)
    (serves : w.manager.Serves session required item h) :
    onSession A clock session required call refusal w =
      (A h call w.calls, ⟨w.manager.touch clock.first session item,
        w.calls ++ [⟨h, call, A h call w.calls⟩]⟩) := by
  simp [onSession, getActionHandler_served serves, World.log]

theorem onSession_refused {A : Answers H} {clock : Clock} {w : World H} {session : SessionId}
    {required : UInt16} (call : HandlerCall) (refusal : call.Answer)
    (refuses : w.manager.Refuses session required) :
    onSession A clock session required call refusal w = (refusal, w) := by
  simp [onSession, getActionHandler_refused refuses]

variable [DecidableEq H]

theorem close_served {A : Answers H} {clock : Clock} {w : World H} {session : SessionId}
    {item : SessionInfo H} {h : H} (serves : w.manager.Serves session anyFlags item h) :
    close A clock session w =
      (A h (.close session) w.calls,
        ⟨if A h (.close session) w.calls = true
          then (w.manager.touch clock.first session item).eraseSession h session
          else w.manager.touch clock.first session item,
        w.calls ++ [⟨h, .close session, A h (.close session) w.calls⟩]⟩) := by
  rcases Bool.eq_false_or_eq_true (A h (.close session) w.calls) with said | said
  · simp [close, getActionHandler_served serves, World.log, said]
  · simp [close, getActionHandler_served serves, World.log, said]

theorem close_refused {A : Answers H} {clock : Clock} {w : World H} {session : SessionId}
    (refuses : w.manager.Refuses session anyFlags) : close A clock session w = (false, w) := by
  simp [close, getActionHandler_refused refuses]

end BlobManager

def ManagerCall.forward? : ManagerCall H → Option (SessionId × UInt16 × HandlerCall)
  | .sessionStat s => some (s, BlobManager.anyFlags, .sessionStat s)
  | .commit s data => some (s, BlobManager.anyFlags, .commit s data)
  | .close s => some (s, BlobManager.anyFlags, .close s)
  | .read s offset size => some (s, OpenFlags.read, .read s offset size)
  | .write s offset data => some (s, OpenFlags.write, .write s offset data)
  | .writeMeta s offset data => some (s, BlobManager.anyFlags, .writeMeta s offset data)
  | _ => none

theorem ManagerCall.kinds (call : ManagerCall H) :
    (∃ s required forwarded, call.forward? = some (s, required, forwarded)) ∨
    (∃ flags path session, call = .open flags path session) ∨
    call.forward? = none ∧ ∀ flags path session, call ≠ .open flags path session := by
  cases call with
  | sessionStat _ | commit _ _ | close _ | read _ _ _ | write _ _ _ | writeMeta _ _ _ =>
    exact .inl ⟨_, _, _, rfl⟩
  | «open» flags path session => exact .inr (.inl ⟨flags, path, session, rfl⟩)
  | _ => exact .inr (.inr ⟨rfl, nofun⟩)

def Event.ends : Event H → Bool
  | ⟨_, .close _, closed⟩ => closed
  | ⟨_, .expire _, expired⟩ => expired
  | _ => false

/-- The manager after a served session request: the session is touched, and gone if the
handler accepted its end. -/
def BlobManager.settled [DecidableEq H] (m : BlobManager H) (now : Time) (session : SessionId)
    (item : SessionInfo H) (e : Event H) : BlobManager H :=
  if e.ends then (m.touch now session item).eraseSession e.handler session
  else m.touch now session item

section Requests

variable [DecidableEq H] (A : Answers H)

theorem session_served {call : ManagerCall H} {session : SessionId} {required : UInt16}
    {forwarded : HandlerCall} (shape : call.forward? = some (session, required, forwarded)) :
    ∃ reply : forwarded.Answer → call.Answer, ∀ (clock : Clock) (w : World H)
      (item : SessionInfo H) (h : H), w.manager.Serves session required item h →
      blobManager A clock call w = (reply (A h forwarded w.calls),
        ⟨w.manager.settled clock.first session item ⟨h, forwarded, A h forwarded w.calls⟩,
          w.calls ++ [⟨h, forwarded, A h forwarded w.calls⟩]⟩) := by
  cases call with
  | sessionStat _ | commit _ _ | read _ _ _ | write _ _ _ | writeMeta _ _ _ =>
    cases shape
    exact ⟨id, fun _ _ _ _ serves => BlobManager.onSession_served _ _ serves⟩
  | close _ =>
    cases shape
    exact ⟨id, fun _ _ _ _ serves => BlobManager.close_served serves⟩
  | _ => cases shape

theorem session_refused {call : ManagerCall H} {session : SessionId} {required : UInt16}
    {forwarded : HandlerCall} (shape : call.forward? = some (session, required, forwarded)) :
    ∃ refusal : call.Answer, ∀ (clock : Clock) (w : World H),
      w.manager.Refuses session required → blobManager A clock call w = (refusal, w) := by
  cases call with
  | sessionStat _ | commit _ _ | read _ _ _ | write _ _ _ | writeMeta _ _ _ =>
    cases shape
    exact ⟨_, fun _ _ refuses => BlobManager.onSession_refused _ _ refuses⟩
  | close _ =>
    cases shape
    exact ⟨_, fun _ _ refuses => BlobManager.close_refused refuses⟩
  | _ => cases shape

end Requests

structure SameSessions [DecidableEq H] (m n : BlobManager H) : Prop where
  sessions : n.sessions = m.sessions
  openSessions : n.openSessions = m.openSessions
  counts : ∀ path, n.openCount path = m.openCount path
  handlers : m.handlers ⊆ n.handlers
  sessionTimeout : n.sessionTimeout = m.sessionTimeout

/-- A request that neither opens, ends nor touches a session. -/
structure Quiet [DecidableEq H] (w v : World H) : Prop where
  same : SameSessions w.manager v.manager
  calls : ∃ events, v.calls = w.calls ++ events ∧ ∀ e ∈ events, e.call.session? = none

section Requests

variable [DecidableEq H] (A : Answers H) (clock : Clock)

theorem SameSessions.refl (m : BlobManager H) : SameSessions m m :=
  ⟨rfl, rfl, fun _ => rfl, List.Subset.refl _, rfl⟩

theorem Quiet.log {w : World H} {events : List (Event H)}
    (silent : ∀ e ∈ events, e.call.session? = none) : Quiet w (w.log events) :=
  ⟨.refl _, events, rfl, silent⟩

theorem Quiet.trans {u v w : World H} (first : Quiet u v) (second : Quiet v w) : Quiet u w := by
  obtain ⟨s₁, e₁, c₁, q₁⟩ := first
  obtain ⟨s₂, e₂, c₂, q₂⟩ := second
  refine ⟨⟨s₂.sessions.trans s₁.sessions, s₂.openSessions.trans s₁.openSessions,
    fun p => (s₂.counts p).trans (s₁.counts p), List.Subset.trans s₁.handlers s₂.handlers,
    s₂.sessionTimeout.trans s₁.sessionTimeout⟩, e₁ ++ e₂, by rw [c₂, c₁, List.append_assoc], ?_⟩
  intro e he
  exact (List.mem_append.mp he).elim (q₁ e) (q₂ e)

theorem Routed.quiet {A : Answers H} {path : Path} {w : World H} {probes : List (Event H)}
    {found : Option H} (routed : Routed A path w.calls w.manager.handlers probes found) :
    Quiet w (w.log probes) :=
  .log routed.silent

theorem collectBlobIds_quiet (hs : List H) (w : World H) :
    Quiet w (BlobManager.collectBlobIds A hs w).2 := by
  induction hs generalizing w with
  | nil => exact ⟨.refl _, [], by simp [BlobManager.collectBlobIds], by simp⟩
  | cons h rest ih =>
    refine Quiet.trans ?_ (ih _)
    exact ⟨⟨rfl, rfl, fun _ => rfl, List.Subset.refl _, rfl⟩,
      [⟨h, .getBlobIds, A h .getBlobIds w.calls⟩], rfl, by simp [HandlerCall.session?]⟩

theorem buildBlobList_quiet (w : World H) : Quiet w (BlobManager.buildBlobList A w).2 := by
  have cleared : Quiet w ⟨{ w.manager with ids := [] }, w.calls⟩ :=
    ⟨⟨rfl, rfl, fun _ => rfl, List.Subset.refl _, rfl⟩, [], by simp, by simp⟩
  exact cleared.trans (collectBlobIds_quiet A w.manager.handlers _)

theorem stat_quiet (path : Path) (w : World H) : Quiet w (BlobManager.stat A path w).2 := by
  obtain ⟨probes, routed, asked⟩ := getHandler_routed A path w
  simp only [BlobManager.stat, bind_apply]
  generalize (BlobManager.getHandler A path w).1 = found at routed
  cases found with
  | none => simpa [asked] using routed.quiet
  | some h =>
    rw [asked]
    exact routed.quiet.trans (.log (by simp [HandlerCall.session?]))

/-- What one delete request does. The count is read through operator[], so the path has an
entry afterwards. -/
inductive DeleteOutcome (A : Answers H) (w : World H) (path : Path) : Bool → World H → Prop where
  | noHandler {probes : List (Event H)} (routed : Routed A path w.calls w.manager.handlers probes none) :
      DeleteOutcome A w path false (w.log probes)
  | isOpen {probes : List (Event H)} {h : H}
      (routed : Routed A path w.calls w.manager.handlers probes (some h))
      (count : w.manager.openCount path > 0) :
      DeleteOutcome A w path false
        ⟨{ w.manager with openFiles := (w.manager.openFiles.subscript 0 path).2 }, w.calls ++ probes⟩
  | forwarded {probes : List (Event H)} {h : H} {deleted : Bool}
      (routed : Routed A path w.calls w.manager.handlers probes (some h))
      (count : ¬ w.manager.openCount path > 0) :
      DeleteOutcome A w path deleted
        ⟨{ w.manager with openFiles := (w.manager.openFiles.subscript 0 path).2 },
          w.calls ++ probes ++ [⟨h, .deleteBlob path, deleted⟩]⟩

omit [DecidableEq H] in
theorem deleteBlob_outcome (path : Path) (w : World H) :
    DeleteOutcome A w path (BlobManager.deleteBlob A path w).1 (BlobManager.deleteBlob A path w).2 := by
  obtain ⟨probes, routed, asked⟩ := getHandler_routed A path w
  have read : (w.manager.openFiles.subscript 0 path).1 = w.manager.openCount path := by
    unfold Table.subscript BlobManager.openCount
    split <;> rename_i known <;> simp [known]
  simp only [BlobManager.deleteBlob, bind_apply]
  generalize (BlobManager.getHandler A path w).1 = found at routed
  cases found with
  | none => simpa [asked] using DeleteOutcome.noHandler routed
  | some h =>
    simp only [bind_apply, onManager_apply, asked, log_manager, log_calls, read]
    by_cases count : w.manager.openCount path > 0
    · simpa [count] using DeleteOutcome.isOpen routed count
    · simpa [count, World.log] using DeleteOutcome.forwarded routed count

theorem deleteBlob_quiet (path : Path) (w : World H) :
    Quiet w (BlobManager.deleteBlob A path w).2 := by
  have peeked : SameSessions w.manager
      { w.manager with openFiles := (w.manager.openFiles.subscript 0 path).2 } :=
    ⟨rfl, rfl, fun p => Table.getD_subscript 0 path p w.manager.openFiles, List.Subset.refl _, rfl⟩
  have outcome := deleteBlob_outcome A path w
  generalize (BlobManager.deleteBlob A path w).1 = deleted at outcome
  generalize (BlobManager.deleteBlob A path w).2 = v at outcome
  cases outcome with
  | noHandler routed => exact routed.quiet
  | isOpen routed _ => exact ⟨peeked, routed.quiet.calls⟩
  | forwarded routed _ =>
    obtain ⟨events, same, silent⟩ := (routed.quiet (w := w)).calls
    refine ⟨peeked, _, List.append_assoc .., ?_⟩
    intro e he
    rcases List.mem_append.mp he with he | he
    · exact routed.silent e he
    · cases List.mem_singleton.mp he; rfl

theorem quiet_request {call : ManagerCall H} (free : call.forward? = none)
    (unopened : ∀ flags path session, call ≠ .open flags path session) (w : World H) :
    Quiet w (blobManager A clock call w).2 := by
  cases call with
  | registerHandler handler =>
    cases handler with
    | none => exact ⟨.refl _, [], by simp [blobManager, BlobManager.registerHandler], by simp⟩
    | some h =>
      exact ⟨⟨rfl, rfl, fun _ => rfl, List.subset_append_left _ _, rfl⟩, [],
        by simp [blobManager], by simp⟩
  | buildBlobList => exact buildBlobList_quiet A w
  | getBlobId index =>
    refine ⟨?_, [], by simp [blobManager], by simp⟩
    simp only [blobManager, onManager_apply, BlobManager.getBlobId]
    split <;> exact .refl _
  | «open» flags path session => exact absurd rfl (unopened flags path session)
  | stat path => exact stat_quiet A path w
  | deleteBlob path => exact deleteBlob_quiet A path w
  | _ => cases free

omit [DecidableEq H] in
theorem collectBlobIds_manager (hs : List H) (w : World H) :
    ∃ ids, (BlobManager.collectBlobIds A hs w).2.manager = { w.manager with ids := ids } := by
  induction hs generalizing w with
  | nil => exact ⟨w.manager.ids, rfl⟩
  | cons h rest ih =>
    obtain ⟨ids, later⟩ := ih
      ⟨{ w.manager with ids := w.manager.ids ++ A h .getBlobIds w.calls },
        w.calls ++ [⟨h, .getBlobIds, A h .getBlobIds w.calls⟩]⟩
    exact ⟨ids, by simpa [BlobManager.collectBlobIds, World.log] using later⟩

theorem deleteBlob_manager {w : World H} {path : Path} {h : H}
    (found : (BlobManager.getHandler A path w).1 = some h) :
    (blobManager A clock (.deleteBlob path) w).2.manager =
      { w.manager with openFiles := (w.manager.openFiles.subscript 0 path).2 } := by
  obtain ⟨probes, _, asked⟩ := getHandler_routed A path w
  simp only [blobManager, BlobManager.deleteBlob, bind_apply, asked, found, onManager_apply]
  split <;> rfl

theorem quiet_manager {call : ManagerCall H} (free : call.forward? = none)
    (unopened : ∀ flags path session, call ≠ .open flags path session) (w : World H) :
    (∃ handlers ids, (blobManager A clock call w).2.manager =
      { w.manager with handlers := handlers, ids := ids }) ∨
    ∃ path h, call = .deleteBlob path ∧ (BlobManager.getHandler A path w).1 = some h := by
  cases call with
  | registerHandler handler =>
    cases handler with
    | none => exact .inl ⟨w.manager.handlers, w.manager.ids, rfl⟩
    | some h => exact .inl ⟨w.manager.handlers ++ [h], w.manager.ids, rfl⟩
  | buildBlobList =>
    obtain ⟨ids, built⟩ := collectBlobIds_manager A w.manager.handlers
      ⟨{ w.manager with ids := [] }, w.calls⟩
    exact .inl ⟨w.manager.handlers, ids, built⟩
  | getBlobId index =>
    refine .inl ⟨w.manager.handlers, w.manager.ids, ?_⟩
    simp only [blobManager, onManager_apply, BlobManager.getBlobId]
    split <;> rfl
  | «open» flags path session => exact absurd rfl (unopened flags path session)
  | stat path =>
    obtain ⟨probes, _, asked⟩ := getHandler_routed A path w
    refine .inl ⟨w.manager.handlers, w.manager.ids, ?_⟩
    simp only [blobManager, BlobManager.stat, bind_apply, asked]
    cases (BlobManager.getHandler A path w).1 <;> rfl
  | deleteBlob path =>
    cases found : (BlobManager.getHandler A path w).1 with
    | none =>
      obtain ⟨probes, _, asked⟩ := getHandler_routed A path w
      refine .inl ⟨w.manager.handlers, w.manager.ids, ?_⟩
      simp only [blobManager, BlobManager.deleteBlob, bind_apply, asked, found]
      rfl
    | some h => exact .inr ⟨path, h, rfl, found⟩
  | _ => cases free

end Requests

end PhosphorBlobs
