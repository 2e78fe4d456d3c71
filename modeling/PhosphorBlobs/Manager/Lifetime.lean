import PhosphorBlobs.Manager.Expiry
import PhosphorBlobs.Manager.Isolation

/-! How long a session lasts. It ends by its own close, or by an open on its handler that
finds it idle for the timeout, and by nothing else that any client does. -/
namespace PhosphorBlobs

variable {H : Type} [DecidableEq H]

/-- The session has been idle for the timeout, and its handler agreed to expire it in an open
of a path that this handler claims. -/
structure Expired (w : World H) (r : Record H) (s : SessionId) (h : H) : Prop where
  opens : ∃ flags path session, r.call = .open flags path session ∧
    ⟨h, .canHandleBlob path, true⟩ ∈ r.calls
  idle : w.manager.Stale r.clock.first s
  agreed : ⟨h, .expire s, true⟩ ∈ r.calls

variable {A : Answers H} {w : World H}

omit [DecidableEq H] in
theorem closed_names {r : Record H} {s : SessionId} (closed : r.closed? = some s) : r.call = .close s := by
  obtain ⟨clock, call, answer, calls⟩ := r
  cases call with
  | close t =>
    cases (answer : Bool) with
    | true => cases closed; rfl
    | false => cases closed
  | _ => cases closed

omit [DecidableEq H] in
theorem BlobManager.bound_known {m : BlobManager H} {s : SessionId} {b : Binding H}
    (bound : m.bound s = some b) : ∃ item, m.sessions.lookup s = some item ∧
      item.handler = some b.handler ∧ item.flags = b.flags ∧ item.blobId = b.path := by
  obtain ⟨item, known, binding⟩ := Option.bind_eq_some_iff.mp bound
  obtain ⟨h, owner, rfl⟩ := Option.map_eq_some_iff.mp binding
  exact ⟨item, known, owner, rfl, rfl⟩

theorem closed_close (clock : Clock) (s : SessionId) : (step A w (clock, .close s)).1.closed? =
    if (blobManager A clock (.close s) w).1 = true then some s else none := by
  cases said : (blobManager A clock (.close s) w).1 with
  | true => simp only [step, Record.closed?, said, if_true]
  | false => simp only [step, Record.closed?, said, Bool.false_eq_true, if_false]

theorem step_mentions (sound : Sound w) {s : SessionId} {b : Binding H}
    (bound : w.manager.bound s = some b) (clock : Clock) (call : ManagerCall H) :
    ∀ e ∈ (step A w (clock, call)).1.calls, e.call.session? = some s →
      e.call = .expire s ∨ ∃ required, call.forward? = some (s, required, e.call) := by
  rcases call.kinds with ⟨t, required, forwarded, shape⟩ | ⟨flags, path, session, rfl⟩ |
    ⟨free, unopened⟩
  · rcases session_step (A := A) sound clock shape with ⟨item, g, reply, _, stepped⟩ |
      ⟨refusal, _, stepped⟩
    · rw [stepped]
      intro e he names
      cases List.mem_singleton.mp he
      rw [(forward_session shape).1] at names
      cases names
      exact .inr ⟨required, shape⟩
    · rw [stepped]
      exact nofun
  · obtain ⟨answer, calls, v, stepped, more, outcome⟩ := open_step (A := A) sound clock flags path session
    rw [stepped]
    intro e he names
    cases outcome with
    | noHandler routed =>
      rw [← List.append_cancel_left more] at he
      exact absurd names (routed.unrelated s e he)
    | noSession routed exhausted =>
      rw [← List.append_cancel_left more] at he
      exact absurd names (routed.unrelated s e he)
    | noFlags routed issued unset =>
      rw [← List.append_cancel_left more] at he
      exact absurd names (routed.unrelated s e he)
    | @tried probes g id answered accepted routed issued set once exact =>
      obtain ⟨item, known, _⟩ := BlobManager.bound_known bound
      rw [BlobManager.tried_calls more] at he
      rcases List.mem_append.mp he with he | last
      · rcases List.mem_append.mp he with probe | expiry
        · exact absurd names (routed.unrelated s e probe)
        · obtain ⟨a, _, rfl⟩ := List.mem_map.mp expiry
          cases names
          exact .inl rfl
      · cases List.mem_singleton.mp last
        cases names
        rw [BlobManager.getSession_free issued] at known
        cases known
  · intro e he names
    rw [quiet_record clock free unopened e he] at names
    cases names

theorem opened_last (sound : Sound w) {clock : Clock} {flags : UInt16} {path : Path} {s : SessionId}
    (opened : (blobManager A clock (.open flags path true) w).1 = .opened s) :
    w.manager.sessions.lookup s = none ∧ ∃ h past calls, A h (.canHandleBlob path) past = true ∧
      (step A w (clock, .open flags path true)).2.manager.bound s = some ⟨h, flags, path⟩ ∧
      (step A w (clock, .open flags path true)).2.calls = calls ++ [⟨h, .open s flags path, true⟩] := by
  obtain ⟨answer, calls, v, stepped, _, outcome⟩ := open_step (A := A) sound clock flags path true
  have said : (blobManager A clock (.open flags path true) w).1 = answer := by
    have records := congrArg Prod.fst stepped
    injection records
  rw [said] at opened
  rw [stepped]
  cases outcome with
  | noHandler routed => cases opened
  | noSession routed exhausted => cases opened
  | noFlags routed issued unset => cases opened
  | @tried probes h id answered accepted routed issued set once exact =>
    cases accepted with
    | false => cases opened
    | true =>
      cases opened
      obtain ⟨past, claims⟩ := routed.said
      refine ⟨BlobManager.getSession_free issued, h, past, _, claims, ?_, rfl⟩
      unfold BlobManager.bound
      rw [BlobManager.offered_lookup issued, if_pos rfl]
      rfl

theorem open_binding {v : World H} {clock : Clock} {flags : UInt16} {path : Path} {session : Bool}
    {answer : BlobManager.Opened} {calls : List (Event H)} (sound : Sound w)
    (more : v.calls = w.calls ++ calls)
    (outcome : BlobManager.OpenOutcome A w clock flags path session answer v) {s : SessionId}
    {b : Binding H} (bound : w.manager.bound s = some b) :
    v.manager.bound s = some b ∨ v.manager.bound s = none ∧
      Expired w ⟨clock, .open flags path session, answer, calls⟩ s b.handler := by
  obtain ⟨item, known, owner, _, _⟩ := BlobManager.bound_known bound
  have spent : (BlobManager.getSession session w.manager).2.bound s = some b := by
    rw [BlobManager.bound, BlobManager.getSession_sessions]
    exact bound
  cases outcome with
  | noHandler routed => exact .inl bound
  | noSession routed exhausted => exact .inl spent
  | noFlags routed issued unset => exact .inl spent
  | @tried probes h id answered accepted routed issued set once exact =>
    have other : s ≠ id := by
      rintro rfl
      rw [BlobManager.getSession_free issued] at known
      cases known
    have lookup := BlobManager.offered_lookup issued clock.second h flags path answered accepted s
    rw [if_neg other] at lookup
    by_cases gone : (s, true) ∈ answered
    · rw [if_pos gone] at lookup
      obtain ⟨held, idle⟩ := (exact s).mp (List.mem_map_of_mem (f := (·.1)) gone)
      have same : b.handler = h := ((sound.tables.held_iff known owner h).mp held).symm
      have made := BlobManager.tried_calls more
      obtain ⟨passed, rest, _, asked⟩ := routed.first
      refine .inr ⟨by rw [BlobManager.bound, lookup]; rfl, ⟨⟨flags, path, session, rfl, ?_⟩, idle, ?_⟩⟩
      · simp [made, asked, same]
      · have expiry : BlobManager.expiry h (s, true) ∈ answered.map (BlobManager.expiry h) :=
          List.mem_map_of_mem gone
        rw [same, made]
        exact List.mem_append_left _ (List.mem_append_right _ expiry)
    · rw [if_neg gone] at lookup
      refine .inl ?_
      rw [BlobManager.bound, lookup]
      exact bound

theorem binding_step (sound : Sound w) (request : Clock × ManagerCall H) {s : SessionId}
    {b : Binding H} (bound : w.manager.bound s = some b) :
    (step A w request).2.manager.bound s = some b ∨
    (step A w request).2.manager.bound s = none ∧
      ((step A w request).1.closed? = some s ∨ Expired w (step A w request).1 s b.handler) := by
  obtain ⟨clock, call⟩ := request
  rcases call.kinds with ⟨t, required, forwarded, shape⟩ | ⟨flags, path, session, rfl⟩ |
    ⟨free, unopened⟩
  · rcases session_step (A := A) sound clock shape with ⟨item, h, reply, serves, stepped⟩ |
      ⟨refusal, _, stepped⟩
    · have closed := served_closed (A := A) clock shape serves
      by_cases ended : (⟨h, forwarded, A h forwarded w.calls⟩ : Event H).ends = true
      · rw [if_pos ended] at closed
        by_cases same : s = t
        · subst same
          refine .inr ⟨?_, .inl closed⟩
          rw [stepped, BlobManager.bound, BlobManager.settled_lookup, if_pos rfl, if_pos ended]
          rfl
        · refine .inl ?_
          rw [stepped, BlobManager.bound, BlobManager.settled_lookup, if_neg same]
          exact bound
      · refine .inl ?_
        rw [stepped, BlobManager.settled, if_neg ended]
        exact (touch_bound serves.known clock.first s).trans bound
    · rw [stepped]
      exact .inl bound
  · obtain ⟨answer, calls, v, stepped, more, outcome⟩ := open_step (A := A) sound clock flags path session
    rw [stepped]
    rcases open_binding sound more outcome bound with kept | ⟨freed, expired⟩
    · exact .inl kept
    · exact .inr ⟨freed, .inr expired⟩
  · have kept : (step A w (clock, call)).2.manager.sessions = w.manager.sessions :=
      (quiet_request A clock free unopened w).same.sessions
    refine .inl ?_
    rw [BlobManager.bound, kept]
    exact bound

/-- A session that is lost in a run was closed by name, or was expired by its own handler in
an open that found it idle for the timeout. A client that acts on its session often enough
keeps it, whatever the others do. -/
theorem sessions_end_for_cause (A : Answers H) (sessionTimeout : Time) (next : UInt16)
    (past later : List (Clock × ManagerCall H)) (s : SessionId) (b : Binding H)
    (bound : (history A sessionTimeout next past).2.manager.bound s = some b)
    (lost : (history A sessionTimeout next (past ++ later)).2.manager.bound s ≠ some b) :
    ∃ before request after, later = before ++ request :: after ∧
      let log := (history A sessionTimeout next (past ++ before)).1
      let w := (history A sessionTimeout next (past ++ before)).2
      let r := (step A w request).1
      w.manager.bound s = some b ∧ (step A w request).2.manager.bound s = none ∧
      (r.closed? = some s ∨
        (∃ flags path session, request.2 = .open flags path session ∧
          ⟨b.handler, .canHandleBlob path, true⟩ ∈ r.calls) ∧
        ⟨b.handler, .expire s, true⟩ ∈ r.calls ∧
        ∃ last, lastAction log s = some last ∧ request.1.first - last ≥ sessionTimeout) := by
  rw [history_append] at lost
  obtain ⟨before, request, after, split, here, gone⟩ :=
    Machine.run_breaks (step A) (P := fun w => w.manager.bound s = some b) bound lost
  rw [← history_append] at here gone
  have sound := history_sound A sessionTimeout next (past ++ before)
  rcases binding_step (A := A) sound request here with kept | ⟨freed, cause⟩
  · exact absurd kept gone
  · refine ⟨before, request, after, split, here, freed, cause.imp_right fun expired => ?_⟩
    obtain ⟨item, known, since⟩ := expired.idle
    rw [history_sessionTimeout] at since
    exact ⟨expired.opens, expired.agreed, item.lastActionTime,
      history_timed A sessionTimeout next (past ++ before) s item known, since⟩

theorem sessions_end_for_cause_stale :
    let first : List (Clock × ManagerCall Bool) :=
      [(⟨0, 0⟩, .registerHandler (some true)), (⟨0, 0⟩, .open 1 [1] true)]
    ∃ before request after, [(⟨100, 100⟩, .open 3 [1] true)] = before ++ request :: after ∧
      let log := (history twoHandlers 60 0 (first ++ before)).1
      let w := (history twoHandlers 60 0 (first ++ before)).2
      let r := (step twoHandlers w request).1
      w.manager.bound 0 = some ⟨true, 1, [1]⟩ ∧
      (step twoHandlers w request).2.manager.bound 0 = none ∧
      (r.closed? = some 0 ∨
        (∃ flags path session, request.2 = .open flags path session ∧
          ⟨true, .canHandleBlob path, true⟩ ∈ r.calls) ∧
        ⟨true, .expire 0, true⟩ ∈ r.calls ∧
        ∃ last, lastAction log 0 = some last ∧ request.1.first - last ≥ 60) :=
  sessions_end_for_cause twoHandlers 60 0 _ [(⟨100, 100⟩, .open 3 [1] true)] 0 ⟨true, 1, [1]⟩ rfl
    (fun kept => by cases kept)

end PhosphorBlobs
