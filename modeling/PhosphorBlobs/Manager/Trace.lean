import PhosphorBlobs.Lib.Trace
import PhosphorBlobs.Manager.Allocation
import PhosphorBlobs.Manager.Contract

/-! The record of handler calls over a whole run. Every answer in it is the handler's own,
and every call is one that the handler was promised, given what stands in front of it. -/
namespace PhosphorBlobs

variable {H : Type}

abbrev Genuine (A : Answers H) : List (Event H) → Prop :=
  Trace.Grown fun past e => e.answer = A e.handler e.call past

/-- A computation that adds to the record only what handlers answered. -/
def Records (A : Answers H) {α : Type} (x : OnWorld H α) : Prop :=
  ∀ w, Genuine A w.calls → Genuine A (x w).2.calls

section Records

variable {A : Answers H} {α β : Type}

theorem Records.bind {x : OnWorld H α} {f : α → OnWorld H β} (first : Records A x)
    (second : ∀ a, Records A (f a)) : Records A (x >>= f) := by
  intro w genuine
  exact second (x w).1 (x w).2 (first w genuine)

theorem Records.pure (a : α) : Records A (Pure.pure a) := fun _ genuine => genuine

theorem Records.get : Records A (get : OnWorld H (World H)) := fun _ genuine => genuine

theorem Records.onManager (f : OnManager H α) : Records A (onManager f) := fun _ genuine => genuine

theorem Records.invoke (h : H) (call : HandlerCall) : Records A (invoke A h call) :=
  fun _ genuine => .snoc genuine rfl

theorem Records.findHandler (path : Path) (hs : List H) :
    Records A (BlobManager.findHandler A path hs) := by
  induction hs with
  | nil => exact .pure none
  | cons h rest ih =>
    refine .bind (.invoke h _) fun claims => ?_
    cases claims with
    | true => exact .pure (some h)
    | false => exact ih

theorem Records.getHandler (path : Path) : Records A (BlobManager.getHandler A path) :=
  .bind .get fun w => .findHandler path w.manager.handlers

theorem Records.collectBlobIds (hs : List H) : Records A (BlobManager.collectBlobIds A hs) := by
  induction hs with
  | nil => exact .pure ()
  | cons h rest ih => exact .bind (.invoke h _) fun _ => .bind (.onManager _) fun _ => ih

theorem Records.onSession (clock : Clock) (session : SessionId) (required : UInt16)
    (call : HandlerCall) (refusal : call.Answer) :
    Records A (BlobManager.onSession A clock session required call refusal) := by
  refine .bind (.onManager _) fun found => ?_
  cases found with
  | none => exact .pure refusal
  | some h => exact .invoke h call

variable [DecidableEq H]

theorem Records.expireEach (h : H) (ids : List SessionId) :
    Records A (BlobManager.expireEach A h ids) := by
  induction ids with
  | nil => exact .pure ()
  | cons id rest ih => exact .bind (.invoke h _) fun _ => .bind (.onManager _) fun _ => ih

theorem Records.cleanUpStaleSessions (timeNow : Time) (h : H) :
    Records A (BlobManager.cleanUpStaleSessions A timeNow h) := by
  refine .bind .get fun w => ?_
  cases w.manager.openSessions.lookup h with
  | none => exact .pure ()
  | some held => exact .bind (.onManager _) fun expired => .expireEach h expired.elems

theorem Records.open (clock : Clock) (flags : UInt16) (path : Path) (session : Bool) :
    Records A (BlobManager.open A clock flags path session) := by
  refine .bind (.getHandler path) fun found => ?_
  cases found with
  | none => exact .pure _
  | some h =>
    refine .bind (.onManager _) fun issued => ?_
    cases issued with
    | none => exact .pure _
    | some id =>
      by_cases unset : flags &&& (OpenFlags.read ||| OpenFlags.write) = 0
      · simp only [unset, if_true]
        exact .pure _
      · simp only [unset, if_false]
        refine .bind (.cleanUpStaleSessions clock.first h) fun _ => .bind (.invoke h _) fun accepted => ?_
        cases accepted with
        | true => exact .bind (.onManager _) fun _ => .pure _
        | false => exact .pure _

theorem Records.close (clock : Clock) (session : SessionId) :
    Records A (BlobManager.close A clock session) := by
  refine .bind (.onManager _) fun found => ?_
  cases found with
  | none => exact .pure false
  | some h =>
    refine .bind (.invoke h _) fun closed => ?_
    cases closed with
    | true => exact .bind (.onManager _) fun _ => .pure true
    | false => exact .pure false

theorem Records.blobManager (clock : Clock) (call : ManagerCall H) :
    Records A (blobManager A clock call) := by
  cases call with
  | registerHandler handler => exact .onManager _
  | buildBlobList =>
    exact .bind (.onManager _) fun _ => .bind .get fun w =>
      .bind (.collectBlobIds w.manager.handlers) fun _ => .bind .get fun _ => .pure _
  | getBlobId index => exact .onManager _
  | «open» flags path session => exact .open clock flags path session
  | stat path =>
    refine .bind (.getHandler path) fun found => ?_
    cases found with
    | none => exact .pure none
    | some h => exact .invoke h _
  | sessionStat _ | commit _ _ | read _ _ _ | write _ _ _ | writeMeta _ _ _ =>
    exact .onSession clock _ _ _ _
  | close session => exact .close clock session
  | deleteBlob path =>
    refine .bind (.getHandler path) fun found => ?_
    cases found with
    | none => exact .pure false
    | some h =>
      refine .bind (.onManager _) fun count => ?_
      split
      · exact .pure false
      · exact .invoke h _

end Records

theorem history_genuine [DecidableEq H] (A : Answers H) (sessionTimeout : Time) (next : UInt16)
    (requests : List (Clock × ManagerCall H)) :
    Genuine A (history A sessionTimeout next requests).2.calls :=
  Machine.run_invariant (step A) (fun w => Genuine A w.calls)
    (fun w request genuine => Records.blobManager request.1 request.2 w genuine) .nil requests

/-- The handler has claimed the path, and nothing but these calls came after that. -/
def Claimed (past since : List (Event H)) (h : H) (path : Path) : Prop :=
  ∃ earlier, past = earlier ++ ⟨h, .canHandleBlob path, true⟩ :: since

/-- The latest accepted open of the session went to this handler, with one of these flags, and
the session was not ended since. -/
def Holds (past : List (Event H)) (h : H) (s : SessionId) (required : UInt16) : Prop :=
  ∃ b, ledger past s = some b ∧ b.handler = h ∧ b.flags &&& required ≠ 0

/-- The calls a handler is promised to receive, given the record in front of them. -/
def Admissible (past : List (Event H)) : Event H → Prop
  | ⟨_, .canHandleBlob _, _⟩ | ⟨_, .getBlobIds, _⟩ => True
  | ⟨h, .stat path, _⟩ => Claimed past [] h path
  | ⟨h, .deleteBlob path, _⟩ =>
    Claimed past [] h path ∧ ∀ s b, ledger past s = some b → b.path ≠ path
  | ⟨h, .open s flags path, _⟩ =>
    (∃ since, Claimed past since h path ∧ ∀ e ∈ since, e.handler = h ∧ ∃ t, e.call = .expire t) ∧
      flags &&& (OpenFlags.read ||| OpenFlags.write) ≠ 0 ∧ ledger past s = none
  | ⟨h, .read s _ _, _⟩ => Holds past h s OpenFlags.read
  | ⟨h, .write s _ _, _⟩ => Holds past h s OpenFlags.write
  | ⟨h, .writeMeta s _ _, _⟩ | ⟨h, .commit s _, _⟩ | ⟨h, .close s, _⟩ | ⟨h, .sessionStat s, _⟩
  | ⟨h, .expire s, _⟩ => Holds past h s BlobManager.anyFlags

theorem Admissible.probe {past : List (Event H)} {e : Event H} {path : Path}
    (asks : e.call = .canHandleBlob path) : Admissible past e := by
  obtain ⟨h, call, answer⟩ := e
  cases asks
  trivial

theorem Routed.claims_last {A : Answers H} {path : Path} {calls probes : List (Event H)}
    {hs : List H} {h : H} (routed : Routed A path calls hs probes (some h)) :
    Claimed (calls ++ probes) [] h path := by
  obtain ⟨passed, rest, _, asked⟩ := routed.first
  exact ⟨calls ++ passed.map fun g => ⟨g, .canHandleBlob path, false⟩, by
    rw [asked, List.append_assoc]⟩

section Steps

variable [DecidableEq H] {A : Answers H} {w v : World H}

theorem any_flag {flags : UInt16} (set : flags &&& (OpenFlags.read ||| OpenFlags.write) ≠ 0) :
    flags &&& BlobManager.anyFlags ≠ 0 := by
  intro unset
  have all : flags &&& BlobManager.anyFlags = flags := UInt16.and_neg_one
  rw [all] at unset
  exact set (by rw [unset]; rfl)

theorem Sound.ledger_known (sound : Sound w) {s : SessionId} {item : SessionInfo H} {h : H}
    (known : w.manager.sessions.lookup s = some item) (owner : item.handler = some h) :
    ledger w.calls s = some ⟨h, item.flags, item.blobId⟩ := by
  rw [← sound.faithful s, BlobManager.bound, known]
  simp [SessionInfo.binding, owner]

theorem Sound.ledger_free (sound : Sound w) {s : SessionId}
    (free : w.manager.sessions.lookup s = none) : ledger w.calls s = none := by
  rw [← sound.faithful s, BlobManager.bound, free]
  rfl

theorem forward_admissible (sound : Sound w) {call : ManagerCall H} {s : SessionId}
    {required : UInt16} {forwarded : HandlerCall} {item : SessionInfo H} {h : H}
    (shape : call.forward? = some (s, required, forwarded))
    (serves : w.manager.Serves s required item h) (answer : forwarded.Answer) :
    Admissible w.calls ⟨h, forwarded, answer⟩ := by
  have holds : Holds w.calls h s required :=
    ⟨_, sound.ledger_known serves.known serves.owner, rfl, serves.allowed⟩
  cases call with
  | sessionStat _ | commit _ _ | close _ | read _ _ _ | write _ _ _ | writeMeta _ _ _ =>
    cases shape
    exact holds
  | _ => cases shape

theorem expiries_admissible (sound : Sound w) {probes : List (Event H)} {path : Path} {h : H}
    (asks : ∀ e ∈ probes, e.call = .canHandleBlob path) {answered : List (SessionId × Bool)}
    (once : (answered.map (·.1)).Nodup) (held : ∀ s ∈ answered.map (·.1), s ∈ w.manager.heldBy h)
    {before after : List (Event H)} {e : Event H}
    (split : answered.map (BlobManager.expiry h) = before ++ e :: after) :
    Admissible (w.calls ++ probes ++ before) e := by
  obtain ⟨front, back, rfl, rfl, rest⟩ := List.map_eq_append_iff.mp split
  obtain ⟨⟨s, expired⟩, others, rfl, rfl, _⟩ := List.map_eq_cons_iff.mp rest
  have inside : s ∈ (front ++ (s, expired) :: others).map (·.1) := by simp
  obtain ⟨item, known, owner⟩ := (sound.tables.held h s).mp (held s inside)
  have distinct : s ∉ front.map (·.1) := by
    rw [List.map_append, List.map_cons, List.nodup_append] at once
    intro also
    exact once.2.2 s also s List.mem_cons_self rfl
  have same : ledger (w.calls ++ probes ++ front.map (BlobManager.expiry h)) s = ledger w.calls s := by
    rw [List.append_assoc, ledger, Journal.replay_append, ledger]
    apply Journal.foldl_elsewhere
    intro f hf write writes
    rcases List.mem_append.mp hf with probe | expiry
    · rw [lifecycle_unrelated (by rw [asks f probe]; rfl)] at writes
      cases writes
    · obtain ⟨⟨t, gone⟩, there, rfl⟩ := List.mem_map.mp expiry
      rw [lifecycle_expiry] at writes
      split at writes
      · cases writes
        rintro rfl
        exact distinct (List.mem_map_of_mem (f := (·.1)) there)
      · cases writes
  refine ⟨⟨h, item.flags, item.blobId⟩, ?_, rfl, any_flag (sound.tables.flagged s item known)⟩
  rw [same]
  exact sound.ledger_known known owner

omit [DecidableEq H] in
theorem probes_contracted {past probes : List (Event H)} {path : Path}
    (contract : Trace.Grown Admissible past) (asks : ∀ e ∈ probes, e.call = .canHandleBlob path) :
    Trace.Grown Admissible (past ++ probes) := by
  refine contract.append fun before e after split => ?_
  exact .probe (asks e (by simp [split]))

theorem open_contracted (sound : Sound w) (contract : Trace.Grown Admissible w.calls) {clock : Clock}
    {flags : UInt16} {path : Path} {session : Bool} {answer : BlobManager.Opened}
    (outcome : BlobManager.OpenOutcome A w clock flags path session answer v) :
    Trace.Grown Admissible v.calls := by
  cases outcome with
  | noHandler routed => exact probes_contracted contract routed.asks
  | noSession routed exhausted => exact probes_contracted contract routed.asks
  | noFlags routed issued unset => exact probes_contracted contract routed.asks
  | @tried probes h id answered accepted routed issued set once exact =>
    have swept : Trace.Grown Admissible (w.calls ++ probes ++ answered.map (BlobManager.expiry h)) :=
      (probes_contracted contract routed.asks).append fun before e after split =>
        expiries_admissible sound routed.asks once (fun s hs => ((exact s).mp hs).1) split
    refine .snoc swept ⟨⟨answered.map (BlobManager.expiry h), ?_, ?_⟩, set, ?_⟩
    · obtain ⟨earlier, asked⟩ := routed.claims_last
      exact ⟨earlier, by rw [asked, List.append_assoc, List.singleton_append]⟩
    · intro e he
      obtain ⟨a, _, rfl⟩ := List.mem_map.mp he
      exact ⟨rfl, a.1, rfl⟩
    · rw [List.append_assoc, ledger, Journal.replay_append]
      refine Journal.foldl_absent ?_ (sound.ledger_free (BlobManager.getSession_free issued))
      intro e he b write
      rcases List.mem_append.mp he with he | he
      · rw [lifecycle_unrelated (routed.silent e he)] at write
        cases write
      · obtain ⟨a, _, rfl⟩ := List.mem_map.mp he
        rw [lifecycle_expiry] at write
        split at write
        · cases write; rfl
        · cases write

omit [DecidableEq H] in
theorem collectBlobIds_contracted (hs : List H) {w : World H}
    (contract : Trace.Grown Admissible w.calls) :
    Trace.Grown Admissible (BlobManager.collectBlobIds A hs w).2.calls := by
  induction hs generalizing w with
  | nil => exact contract
  | cons h rest ih => exact ih (.snoc contract trivial)

omit [DecidableEq H] in
theorem stat_contracted (path : Path) (contract : Trace.Grown Admissible w.calls) :
    Trace.Grown Admissible (BlobManager.stat A path w).2.calls := by
  obtain ⟨probes, routed, asked⟩ := getHandler_routed A path w
  have probed := probes_contracted contract routed.asks
  simp only [BlobManager.stat, bind_apply, asked]
  generalize (BlobManager.getHandler A path w).1 = found at routed
  cases found with
  | none => exact probed
  | some h => exact .snoc probed routed.claims_last

theorem deleteBlob_contracted (sound : Sound w) (path : Path)
    (contract : Trace.Grown Admissible w.calls) :
    Trace.Grown Admissible (BlobManager.deleteBlob A path w).2.calls := by
  have outcome := deleteBlob_outcome A path w
  generalize (BlobManager.deleteBlob A path w).1 = deleted at outcome
  generalize (BlobManager.deleteBlob A path w).2 = v at outcome ⊢
  cases outcome with
  | noHandler routed => exact probes_contracted contract routed.asks
  | isOpen routed count => exact probes_contracted contract routed.asks
  | @forwarded probes h _ routed count =>
    refine .snoc (probes_contracted contract routed.asks) ⟨routed.claims_last, ?_⟩
    intro s b bound
    rw [ledger, Journal.replay_append, Journal.foldl_silent
      fun e he => lifecycle_unrelated (routed.silent e he)] at bound
    have known : w.manager.bound s = some b := (sound.faithful s).trans bound
    obtain ⟨item, found, binding⟩ := Option.bind_eq_some_iff.mp known
    obtain ⟨g, _, rfl⟩ := Option.map_eq_some_iff.mp binding
    exact (sound.tables.count_zero_iff path).mp count s item found

theorem step_contracted (sound : Sound w) (contract : Trace.Grown Admissible w.calls)
    (request : Clock × ManagerCall H) : Trace.Grown Admissible (step A w request).2.calls := by
  obtain ⟨clock, call⟩ := request
  rcases call.kinds with ⟨s, required, forwarded, shape⟩ | ⟨flags, path, session, rfl⟩ |
    ⟨free, unopened⟩
  · rcases session_step (A := A) sound clock shape with ⟨item, h, reply, serves, stepped⟩ |
      ⟨refusal, _, stepped⟩
    · rw [stepped]
      exact .snoc contract (forward_admissible sound shape serves _)
    · rw [stepped]
      exact contract
  · exact open_contracted sound contract
      (BlobManager.open_outcome A clock flags path session w sound.tables.present)
  · cases call with
    | registerHandler handler => exact contract
    | buildBlobList => exact collectBlobIds_contracted w.manager.handlers contract
    | getBlobId index => exact contract
    | «open» flags path session => exact absurd rfl (unopened flags path session)
    | stat path => exact stat_contracted path contract
    | deleteBlob path => exact deleteBlob_contracted sound path contract
    | _ => cases free

end Steps

theorem history_contracted [DecidableEq H] (A : Answers H) (sessionTimeout : Time) (next : UInt16)
    (requests : List (Clock × ManagerCall H)) :
    Trace.Grown Admissible (history A sessionTimeout next requests).2.calls :=
  (Machine.run_invariant (step A) (fun w => Sound w ∧ Trace.Grown Admissible w.calls)
    (fun _ request ⟨sound, contract⟩ => ⟨sound.step request, step_contracted sound contract request⟩)
    ⟨.fresh sessionTimeout next, .nil⟩ requests).2

/-- The calling contract over a whole run: whatever call any handler receives, at whatever
moment, is one that it was promised, and its answer is recorded as it was given. -/
theorem calls_keep_contract [DecidableEq H] (A : Answers H) (sessionTimeout : Time) (next : UInt16)
    (requests : List (Clock × ManagerCall H)) (before after : List (Event H)) (e : Event H)
    (split : (history A sessionTimeout next requests).2.calls = before ++ e :: after) :
    Admissible before e ∧ e.answer = A e.handler e.call before :=
  ⟨Trace.grown_iff_split.mp (history_contracted A sessionTimeout next requests) before e after split,
    Trace.grown_iff_split.mp (history_genuine A sessionTimeout next requests) before e after split⟩

theorem calls_keep_contract_close :
    Admissible [⟨(), .canHandleBlob [97], true⟩, ⟨(), .open 0 1 [97], true⟩]
      (⟨(), .close 0, true⟩ : Event Unit) ∧
    true = willing () (.close 0) [⟨(), .canHandleBlob [97], true⟩, ⟨(), .open 0 1 [97], true⟩] :=
  calls_keep_contract willing 60 0 [(⟨0, 0⟩, .registerHandler (some ())), opening, (⟨0, 0⟩, .close 0)]
    _ [] _ rfl

end PhosphorBlobs
