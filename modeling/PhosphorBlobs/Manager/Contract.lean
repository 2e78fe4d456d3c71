import PhosphorBlobs.Manager.Ledger

/-! What handlers may rely on: the tables agree with one another and with the handlers' own
view, calls reach a handler only for sessions it holds, and no blob is deleted while one of
its sessions is open. -/
namespace PhosphorBlobs

variable {H : Type} [DecidableEq H]

/-- The tables agree in every reachable state, and again after any number of iterations of
the expire loop. So operator[] finds its key in both loops of cleanUpStaleSessions, and the
count that eraseSession lowers is at least one. -/
theorem session_tables_agree (A : Answers H) (sessionTimeout : Time) (next : UInt16)
    (requests : List (Clock × ManagerCall H)) :
    let w := (history A sessionTimeout next requests).2
    let m := w.manager
    (∀ h s, s ∈ m.heldBy h ↔ ∃ item, m.sessions.lookup s = some item ∧ item.handler = some h) ∧
    (∀ s item, m.sessions.lookup s = some item → ∃! h, s ∈ m.heldBy h) ∧
    (∀ path, m.openCount path = Table.tally (fun item => decide (item.blobId = path)) m.sessions ∧
      0 ≤ m.openCount path ∧ m.openCount path ≤ 65536) ∧
    (∀ s item, m.sessions.lookup s = some item →
      item.flags &&& (OpenFlags.read ||| OpenFlags.write) ≠ 0 ∧
      ∃ h ∈ m.handlers, item.handler = some h) ∧
    (∀ h timeNow found,
      (BlobManager.collectExpired timeNow (m.heldBy h).elems found m).2 = m) ∧
    (∀ h walked, walked.Nodup → (∀ s ∈ walked, s ∈ m.heldBy h) →
      Tables (BlobManager.expireEach A h walked w).2.manager ∧
      ∀ s item, (BlobManager.expireEach A h walked w).2.manager.sessions.lookup s = some item →
        1 ≤ (BlobManager.expireEach A h walked w).2.manager.openCount item.blobId) := by
  intro w m
  have sound : Sound w := history_sound A sessionTimeout next requests
  have tables : Tables m := sound.tables
  refine ⟨tables.held, ?_, fun path => ⟨tables.counted path, tables.count_le path⟩,
    fun s item known => ⟨tables.flagged s item known, tables.registered s item known⟩, ?_, ?_⟩
  · intro s item known
    obtain ⟨h, _, owner⟩ := tables.registered s item known
    exact ⟨h, (tables.held_iff known owner h).mpr rfl, fun g => (tables.held_iff known owner g).mp⟩
  · intro h timeNow found
    exact (BlobManager.collectExpired_present timeNow m _ (tables.present h) found).1
  · intro h walked once held
    obtain ⟨answered, asked, swept⟩ := BlobManager.expireEach_sweeps A h walked w
    have acts := sweep_acts h answered w (asked ▸ once) fun s hs =>
      (tables.held h s).mp (held s (asked ▸ hs))
    have after : Tables (BlobManager.expireEach A h walked w).2.manager := by
      rw [swept]
      exact acts.tables tables
    exact ⟨after, fun s item known => after.count_pos known⟩

theorem last_marked {α : Type} (marked : α → Prop) {front before after : List α} {x e : α}
    (unmarked : ∀ a ∈ front, ¬ marked a) (mark : marked e)
    (split : front ++ [x] = before ++ e :: after) : before = front ∧ e = x := by
  rcases List.append_eq_append_iff.mp split with ⟨gap, here, there⟩ | ⟨gap, here, there⟩
  · cases gap with
    | nil => exact ⟨by simpa using here, (List.cons.inj there).1.symm⟩
    | cons a rest => simp at there
  · cases gap with
    | nil => exact ⟨by simpa using here.symm, (List.cons.inj there).1⟩
    | cons a rest =>
      have same : e = a := (List.cons.inj there).1
      exact absurd mark (unmarked e (by simp [here, same]))

theorem quiet_record {A : Answers H} {w : World H} (clock : Clock) {call : ManagerCall H}
    (free : call.forward? = none) (unopened : ∀ flags path session, call ≠ .open flags path session) :
    ∀ e ∈ (step A w (clock, call)).1.calls, e.call.session? = none := by
  obtain ⟨_, events, more, silent⟩ := quiet_request A clock free unopened w
  have calls : (step A w (clock, call)).1.calls = events := record_calls rfl more
  rw [calls]
  exact silent

theorem open_call {A : Answers H} {w : World H} (sound : Sound w) {clock : Clock}
    {call : ManagerCall H} {before after : List (Event H)} {h : H} {s : SessionId}
    {flags : UInt16} {path : Path} {answer : Bool}
    (made : (step A w (clock, call)).1.calls = before ++ ⟨h, .open s flags path, answer⟩ :: after) :
    (∃ session, call = .open flags path session) ∧
    (∃ probes others, Routed A path w.calls w.manager.handlers probes (some h) ∧
      before = probes ++ others ∧ ∀ e ∈ others, ∃ t, e.call = .expire t) ∧
    flags &&& (OpenFlags.read ||| OpenFlags.write) ≠ 0 ∧ ledger (w.calls ++ before) s = none := by
  have inside : ⟨h, .open s flags path, answer⟩ ∈ (step A w (clock, call)).1.calls := by simp [made]
  rcases call.kinds with ⟨t, required, forwarded, shape⟩ | ⟨flags', path', session, rfl⟩ |
    ⟨free, unopened⟩
  · obtain ⟨named, unopened⟩ := forward_session shape
    rcases session_step (A := A) sound clock shape with ⟨item, g, reply, _, stepped⟩ |
      ⟨refusal, _, stepped⟩
    · rw [stepped, List.mem_singleton] at inside
      cases inside
      cases named
      exact absurd rfl (unopened flags path)
    · rw [stepped] at inside
      cases inside
  · obtain ⟨result, calls, v, stepped, more, outcome⟩ :=
      open_step (A := A) sound clock flags' path' session
    rw [stepped] at made inside
    have probing : ∀ {probes : List (Event H)} {found : Option H},
        Routed A path' w.calls w.manager.handlers probes found →
        w.calls ++ probes = w.calls ++ calls → False := by
      intro probes found routed same
      rw [← List.append_cancel_left same] at inside
      cases routed.asks _ inside
    cases outcome with
    | noHandler routed => exact (probing routed more).elim
    | noSession routed _ => exact (probing routed more).elim
    | noFlags routed _ _ => exact (probing routed more).elim
    | @tried probes g id answered accepted routed issued set once exact =>
      have all := BlobManager.tried_calls more
      rw [all] at made
      obtain ⟨front, last⟩ := last_marked (fun e : Event H => ∃ t f p, e.call = .open t f p) (by
          rintro e he ⟨t, f, p, isOpen⟩
          rcases List.mem_append.mp he with he | he
          · rw [routed.asks e he] at isOpen; cases isOpen
          · obtain ⟨a, _, rfl⟩ := List.mem_map.mp he
            cases isOpen) ⟨s, flags, path, rfl⟩ made
      cases last
      refine ⟨⟨session, rfl⟩, ⟨probes, answered.map (BlobManager.expiry h), routed, front, ?_⟩,
        set, ?_⟩
      · intro e he
        obtain ⟨a, _, rfl⟩ := List.mem_map.mp he
        exact ⟨a.1, rfl⟩
      · have free : w.manager.sessions.lookup s = none := BlobManager.getSession_free issued
        have unbound : ledger w.calls s = none := by
          rw [← sound.faithful s, BlobManager.bound, free]
          rfl
        rw [front, ledger, Journal.replay_append]
        refine Journal.foldl_absent ?_ unbound
        intro e he b write
        rcases List.mem_append.mp he with he | he
        · rw [lifecycle_unrelated (routed.silent e he)] at write
          cases write
        · obtain ⟨⟨t, expired⟩, _, rfl⟩ := List.mem_map.mp he
          rw [lifecycle_expiry] at write
          split at write
          · cases write; rfl
          · cases write
  · cases quiet_record (A := A) (w := w) clock free unopened _ inside

theorem handler_calling_contract (A : Answers H) (sessionTimeout : Time) (next : UInt16)
    (requests : List (Clock × ManagerCall H)) (clock : Clock) (call : ManagerCall H) :
    let w := (history A sessionTimeout next requests).2
    let calls := (step A w (clock, call)).1.calls
    let v := (step A w (clock, call)).2
    v.calls = w.calls ++ calls ∧
    (∀ before h s flags path answer after,
      calls = before ++ ⟨h, .open s flags path, answer⟩ :: after →
        (∃ session, call = .open flags path session) ∧
        (∃ passed rest others, w.manager.handlers = passed ++ h :: rest ∧
          before = passed.map (fun g => ⟨g, .canHandleBlob path, false⟩) ++
            ⟨h, .canHandleBlob path, true⟩ :: others ∧ ∀ e ∈ others, ∃ t, e.call = .expire t) ∧
        flags &&& (OpenFlags.read ||| OpenFlags.write) ≠ 0 ∧
        ∀ g f p, ¬ StillOpen (w.calls ++ before) s g f p) ∧
    (∀ s h flags path,
      (∃ item, v.manager.sessions.lookup s = some item ∧ item.handler = some h ∧
        item.flags = flags ∧ item.blobId = path) ↔ StillOpen v.calls s h flags path) ∧
    (∀ s required forwarded, call.forward? = some (s, required, forwarded) →
      (∀ item h, w.manager.sessions.lookup s = some item → item.handler = some h →
        required = BlobManager.anyFlags ∨ item.flags &&& required ≠ 0 →
          ∃ answer, calls = [⟨h, forwarded, answer⟩]) ∧
      ((∀ item, w.manager.sessions.lookup s = some item →
        required ≠ BlobManager.anyFlags ∧ item.flags &&& required = 0) → calls = [])) := by
  intro w calls v
  have sound : Sound w := history_sound A sessionTimeout next requests
  refine ⟨step_calls sound _, ?_, ?_, ?_⟩
  · intro before h s flags path answer after made
    obtain ⟨opens, ⟨probes, others, routed, front, expiries⟩, set, unbound⟩ := open_call sound made
    obtain ⟨passed, rest, handlers, asked⟩ := routed.first
    refine ⟨opens, ⟨passed, rest, others, handlers, by simp [front, asked], expiries⟩, set, ?_⟩
    intro g f p still
    rw [← ledger_eq_some (b := ⟨g, f, p⟩), unbound] at still
    cases still
  · intro s h flags path
    exact (sound.step (clock, call)).faithful.bound_iff
  · intro s required forwarded shape
    have any : ∀ flags : UInt16, flags &&& (OpenFlags.read ||| OpenFlags.write) ≠ 0 →
        flags &&& BlobManager.anyFlags ≠ 0 := by
      intro flags set unset
      have all : flags &&& BlobManager.anyFlags = flags := UInt16.and_neg_one
      rw [all] at unset
      exact set (by rw [unset]; rfl)
    rcases session_step (A := A) sound clock shape with ⟨item, h, reply, serves, stepped⟩ |
      ⟨refusal, refuses, stepped⟩
    · have made : calls = [⟨h, forwarded, A h forwarded w.calls⟩] :=
        congrArg (fun done => done.1.calls) stepped
      refine ⟨?_, ?_⟩
      · intro other g known owner _
        rw [serves.known] at known
        cases known
        rw [serves.owner] at owner
        cases owner
        exact ⟨_, made⟩
      · intro unset
        exact absurd (unset item serves.known).2 serves.allowed
    · have made : calls = [] := congrArg (fun done => done.1.calls) stepped
      refine ⟨?_, fun _ => made⟩
      intro item h known owner allowed
      have unset := refuses item known
      rcases allowed with rfl | allowed
      · exact absurd unset (any item.flags (sound.tables.flagged s item known))
      · exact absurd unset allowed

theorem Sound.uncounted_iff {w : World H} (sound : Sound w) (path : Path) :
    ¬ w.manager.openCount path > 0 ↔ ∀ s h flags, ¬ StillOpen w.calls s h flags path := by
  rw [sound.tables.count_zero_iff path]
  constructor
  · intro other s h flags still
    obtain ⟨item, known, _, _, same⟩ := sound.faithful.bound_iff.mpr still
    exact other s item known same
  · intro none_open s item known same
    obtain ⟨h, _, owner⟩ := sound.tables.registered s item known
    exact none_open s h item.flags (sound.faithful.bound_iff.mp ⟨item, known, owner, rfl, same⟩)

/-- The delete guard: a delete reaches the handler of the path exactly when no session opened
on it is still open. No session changes either way. -/
theorem delete_guard (A : Answers H) (sessionTimeout : Time) (next : UInt16)
    (requests : List (Clock × ManagerCall H)) (clock : Clock) (path : Path) :
    let w := (history A sessionTimeout next requests).2
    let calls := (step A w (clock, .deleteBlob path)).1.calls
    let done := blobManager A clock (.deleteBlob path) w
    ((∃ h deleted, ⟨h, .deleteBlob path, deleted⟩ ∈ calls) ↔
      (∃ h, (BlobManager.getHandler A path w).1 = some h) ∧
        ∀ s h flags, ¬ StillOpen w.calls s h flags path) ∧
    (∀ h, (BlobManager.getHandler A path w).1 = some h ↔
      ∃ probes, Routed A path w.calls w.manager.handlers probes (some h)) ∧
    (∀ h deleted, ⟨h, .deleteBlob path, deleted⟩ ∈ calls →
      (BlobManager.getHandler A path w).1 = some h ∧ done.1 = deleted ∧
      ∃ passed rest, w.manager.handlers = passed ++ h :: rest ∧
        calls = passed.map (fun g => ⟨g, .canHandleBlob path, false⟩) ++
          [⟨h, .canHandleBlob path, true⟩, ⟨h, .deleteBlob path, deleted⟩]) ∧
    ((∀ h deleted, ⟨h, .deleteBlob path, deleted⟩ ∉ calls) → done.1 = false) ∧
    done.2.manager.sessions = w.manager.sessions ∧
    done.2.manager.openSessions = w.manager.openSessions := by
  intro w calls done
  have sound : Sound w := history_sound A sessionTimeout next requests
  have kept := (deleteBlob_quiet A path w).same
  have outcome := deleteBlob_outcome A path w
  have stepped : (step A w (clock, .deleteBlob path)).2 = (BlobManager.deleteBlob A path w).2 := rfl
  have answered : done.1 = (BlobManager.deleteBlob A path w).1 := rfl
  rw [answered]
  generalize (BlobManager.deleteBlob A path w).2 = u at outcome stepped
  generalize (BlobManager.deleteBlob A path w).1 = answer at outcome
  have routing : ∀ h, (BlobManager.getHandler A path w).1 = some h ↔
      ∃ probes, Routed A path w.calls w.manager.handlers probes (some h) := fun h => getHandler_iff
  cases outcome with
  | @noHandler probes routed =>
    have made : calls = probes := record_calls stepped rfl
    have unasked := routed.undeleted
    have lacking := getHandler_iff.mpr ⟨probes, routed⟩
    rw [made]
    refine ⟨⟨?_, ?_⟩, routing, ?_, fun _ => rfl, kept.sessions, kept.openSessions⟩
    · rintro ⟨h, deleted, call⟩
      exact absurd call (unasked h deleted)
    · rintro ⟨⟨h, found⟩, _⟩
      cases lacking.symm.trans found
    · exact fun h deleted call => absurd call (unasked h deleted)
  | @isOpen probes g routed count =>
    have made : calls = probes := record_calls stepped rfl
    have unasked := routed.undeleted
    rw [made]
    refine ⟨⟨?_, ?_⟩, routing, ?_, fun _ => rfl, kept.sessions, kept.openSessions⟩
    · rintro ⟨h, deleted, call⟩
      exact absurd call (unasked h deleted)
    · rintro ⟨_, none_open⟩
      exact absurd count ((sound.uncounted_iff path).mpr none_open)
    · exact fun h deleted call => absurd call (unasked h deleted)
  | @forwarded probes g _ routed count =>
    have made : calls = probes ++ [⟨g, .deleteBlob path, answer⟩] :=
      record_calls stepped (List.append_assoc ..)
    have unasked := routed.undeleted
    have found := getHandler_iff.mpr ⟨probes, routed⟩
    have only : ∀ h deleted, ⟨h, .deleteBlob path, deleted⟩ ∈ calls → h = g ∧ deleted = answer := by
      intro h deleted call
      rw [made, List.mem_append, List.mem_singleton] at call
      rcases call with call | call
      · exact absurd call (unasked h deleted)
      · cases call; exact ⟨rfl, rfl⟩
    obtain ⟨passed, rest, handlers, asked⟩ := routed.first
    have there : ⟨g, .deleteBlob path, answer⟩ ∈ calls := by simp [made]
    refine ⟨⟨?_, ?_⟩, routing, ?_, fun none_made => absurd there (none_made g answer), kept.sessions,
      kept.openSessions⟩
    · intro _
      exact ⟨⟨g, found⟩, (sound.uncounted_iff path).mp count⟩
    · intro _
      exact ⟨g, answer, there⟩
    · intro h deleted call
      obtain ⟨rfl, rfl⟩ := only h deleted call
      exact ⟨found, rfl, passed, rest, handlers, by simp [made, asked]⟩

end PhosphorBlobs
