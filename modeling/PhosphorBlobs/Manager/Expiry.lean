import PhosphorBlobs.Manager.Contract

/-! Expiry of stale sessions. The last action of a session is read from the record of a run
alone; the time stamps of the session map are shown to be these readings, so a decision of
cleanUpStaleSessions is a decision about the run. -/
namespace PhosphorBlobs

variable {H : Type}

def Record.opened? : Record H → Option SessionId
  | ⟨_, .open .., .opened s, _⟩ => some s
  | _ => none

/-- The session whose inactivity a record ends, with the clock reading it took: a successful
open, or a session request that was forwarded to the handler. -/
def Record.touches (r : Record H) : Option (SessionId × Option Time) :=
  match r.call.forward? with
  | some (s, _, _) =>
    if r.calls.any fun e => e.call.session? = some s then some (s, some r.clock.first) else none
  | none => r.opened?.map fun s => (s, some r.clock.second)

/-- The clock reading of the latest record that touches the session. -/
def lastAction (log : List (Record H)) (s : SessionId) : Option Time :=
  (Journal.latest Record.touches log s).bind fun r => r.touches.bind (·.2)

theorem lastAction_concat (log : List (Record H)) (r : Record H) (s : SessionId) :
    lastAction (log ++ [r]) s = Journal.apply Record.touches (lastAction log) r s := by
  have all : ∀ log : List (Record H), lastAction log = Journal.replay Record.touches log :=
    fun log => funext fun s => (Journal.replay_eq_latest log s).symm
  rw [all, all, Journal.replay_append, List.foldl_cons, List.foldl_nil]

theorem lastAction_idle {log : List (Record H)} {r : Record H} (idle : r.touches = none)
    (s : SessionId) : lastAction (log ++ [r]) s = lastAction log s := by
  rw [lastAction_concat, Journal.apply_silent idle]

theorem lastAction_touched {log : List (Record H)} {r : Record H} {t : SessionId} {now : Time}
    (touched : r.touches = some (t, some now)) (s : SessionId) :
    lastAction (log ++ [r]) s = if s = t then some now else lastAction log s := by
  rw [lastAction_concat, Journal.apply_write touched, Function.update_apply]

/-- Every open session carries the time of its last action. -/
def Timed (log : List (Record H)) (w : World H) : Prop :=
  ∀ s item, w.manager.sessions.lookup s = some item → lastAction log s = some item.lastActionTime

variable [DecidableEq H] {A : Answers H}

theorem forward_timed {log : List (Record H)} {w : World H} (sound : Sound w) (timed : Timed log w)
    {clock : Clock} {call : ManagerCall H} {s : SessionId} {required : UInt16}
    {forwarded : HandlerCall} (shape : call.forward? = some (s, required, forwarded)) :
    Timed (log ++ [(step A w (clock, call)).1]) (step A w (clock, call)).2 := by
  rcases session_step (A := A) sound clock shape with ⟨item, h, reply, serves, stepped⟩ |
    ⟨refusal, _, stepped⟩
  · have touched : (step A w (clock, call)).1.touches = some (s, some clock.first) := by
      have named := (forward_session shape).1
      simp only [stepped, Record.touches, shape, List.any_cons, named, decide_true, Bool.true_or]
      rfl
    intro t other known
    rw [lastAction_touched touched]
    rw [stepped, BlobManager.settled_lookup] at known
    by_cases same : t = s
    · rw [if_pos same] at known ⊢
      split at known
      · cases known
      · cases known; rfl
    · rw [if_neg same] at known ⊢
      exact timed t other known
  · have idle : (step A w (clock, call)).1.touches = none := by
      simp only [stepped, Record.touches, shape, List.any_nil, Bool.false_eq_true, if_false]
    intro t other known
    rw [lastAction_idle idle]
    rw [stepped] at known
    exact timed t other known

theorem open_timed {log : List (Record H)} {w v : World H} (timed : Timed log w) {clock : Clock}
    {flags : UInt16} {path : Path} {session : Bool} {answer : BlobManager.Opened}
    (calls : List (Event H))
    (outcome : BlobManager.OpenOutcome A w clock flags path session answer v) :
    Timed (log ++ [⟨clock, .open flags path session, answer, calls⟩]) v := by
  have spent := BlobManager.getSession_sessions session w.manager
  intro s item known
  cases outcome with
  | noHandler routed =>
    rw [lastAction_idle rfl]
    exact timed s item known
  | noSession routed exhausted =>
    rw [lastAction_idle rfl]
    exact timed s item (spent ▸ known)
  | noFlags routed issued unset =>
    rw [lastAction_idle rfl]
    exact timed s item (spent ▸ known)
  | @tried probes h id answered accepted routed issued set once exact =>
    rw [BlobManager.offered_lookup issued] at known
    cases accepted with
    | true =>
      have touched : (⟨clock, .open flags path session, .opened id, calls⟩ : Record H).touches =
        some (id, some clock.second) := rfl
      rw [if_pos rfl, lastAction_touched touched]
      by_cases same : s = id
      · rw [if_pos same, if_pos rfl] at known
        cases known
        rw [if_pos same]
      · rw [if_neg same] at known
        rw [if_neg same]
        split_ifs at known with expired
        exact timed s item known
    | false =>
      have idle : (⟨clock, .open flags path session, .refused (some id), calls⟩ : Record H).touches =
        none := rfl
      rw [if_neg Bool.false_ne_true, lastAction_idle idle]
      by_cases same : s = id
      · rw [if_pos same, if_neg Bool.false_ne_true] at known
        cases known
      · rw [if_neg same] at known
        split_ifs at known with expired
        exact timed s item known

theorem quiet_timed {log : List (Record H)} {w : World H} (timed : Timed log w) {clock : Clock}
    {call : ManagerCall H} (free : call.forward? = none)
    (unopened : ∀ flags path session, call ≠ .open flags path session) :
    Timed (log ++ [(step A w (clock, call)).1]) (step A w (clock, call)).2 := by
  have same := (quiet_request A clock free unopened w).same.sessions
  have idle : (step A w (clock, call)).1.touches = none := by
    cases call with
    | «open» flags path session => exact absurd rfl (unopened flags path session)
    | sessionStat _ | commit _ _ | close _ | read _ _ _ | write _ _ _ | writeMeta _ _ _ => cases free
    | _ => rfl
  intro s item known
  have before : (step A w (clock, call)).2.manager.sessions = w.manager.sessions := same
  rw [before] at known
  rw [lastAction_idle idle]
  exact timed s item known

theorem history_timed (A : Answers H) (sessionTimeout : Time) (next : UInt16)
    (requests : List (Clock × ManagerCall H)) :
    Timed (history A sessionTimeout next requests).1 (history A sessionTimeout next requests).2 := by
  refine (Machine.run_history (step A) (fun log w => Sound w ∧ Timed log w) ?_
    ⟨.fresh sessionTimeout next, ?_⟩ requests).2
  · rintro log w ⟨clock, call⟩ ⟨sound, timed⟩
    refine ⟨sound.step _, ?_⟩
    rcases call.kinds with ⟨s, required, forwarded, shape⟩ | ⟨flags, path, session, rfl⟩ |
      ⟨free, unopened⟩
    · exact forward_timed sound timed shape
    · obtain ⟨answer, calls, v, stepped, _, outcome⟩ :=
        open_step (A := A) sound clock flags path session
      rw [stepped]
      exact open_timed timed calls outcome
    · exact quiet_timed timed free unopened
  · intro s item known
    simp [World.fresh, BlobManager.fresh] at known

theorem Act.sessionTimeout {w v : World H} (act : Act w v) :
    v.manager.sessionTimeout = w.manager.sessionTimeout := by
  cases act with
  | quiet quiet => exact quiet.same.sessionTimeout
  | touch known now => rfl
  | call idle => rfl
  | @free s _ e _ _ _ => exact (BlobManager.eraseSession_keeps e.handler s w.manager).2.1
  | bind unbound inside set now path => rfl

theorem Acts.sessionTimeout {w v : World H} (acts : Acts w v) :
    v.manager.sessionTimeout = w.manager.sessionTimeout := by
  induction acts with
  | refl => rfl
  | tail _ last ih => exact last.sessionTimeout.trans ih

theorem history_sessionTimeout (A : Answers H) (sessionTimeout : Time) (next : UInt16)
    (requests : List (Clock × ManagerCall H)) :
    (history A sessionTimeout next requests).2.manager.sessionTimeout = sessionTimeout := by
  refine (Machine.run_invariant (step A)
    (fun w => Sound w ∧ w.manager.sessionTimeout = sessionTimeout) ?_
    ⟨.fresh sessionTimeout next, rfl⟩ requests).2
  rintro w ⟨clock, call⟩ ⟨sound, same⟩
  refine ⟨sound.step _, ?_⟩
  exact (request_acts A clock call sound.tables).sessionTimeout.trans same

/-- How many sessions on the path were freed by their answered expire calls. -/
def released (m : BlobManager H) (answered : List (SessionId × Bool)) (path : Path) : Nat :=
  (answered.filter fun a => a.2 && (m.sessions.lookup a.1).any (onPath path)).length

theorem sweep_count {m : BlobManager H} {h : H} {answered : List (SessionId × Bool)}
    (once : (answered.map (·.1)).Nodup)
    (known : ∀ s ∈ answered.map (·.1), ∃ item, m.sessions.lookup s = some item) (path : Path) :
    (m.sweep h answered).openCount path = m.openCount path - released m answered path := by
  induction answered generalizing m with
  | nil => simp [BlobManager.sweep, released]
  | cons a rest ih =>
    obtain ⟨s, expired⟩ := a
    obtain ⟨fresh, distinct⟩ := List.nodup_cons.mp once
    obtain ⟨item, here⟩ := known s List.mem_cons_self
    have others := fun t ht => known t (List.mem_cons_of_mem s ht)
    cases expired with
    | false => simpa [BlobManager.sweep, released] using ih distinct others
    | true =>
      have kept : ∀ t ∈ rest.map (·.1), (m.eraseSession h s).sessions.lookup t =
          m.sessions.lookup t := by
        intro t ht
        rw [BlobManager.eraseSession_sessions, Table.lookup_erase_if, if_neg]
        rintro rfl
        exact fresh ht
      have tail := ih (m := m.eraseSession h s) distinct fun t ht => by
        rw [kept t ht]; exact others t ht
      have same : released (m.eraseSession h s) rest path = released m rest path := by
        unfold released
        congr 1
        apply List.filter_congr
        intro a ha
        rw [kept a.1 (List.mem_map_of_mem ha)]
      have swept : m.sweep h ((s, true) :: rest) = (m.eraseSession h s).sweep h rest := rfl
      have counted : released m ((s, true) :: rest) path =
          released m rest path + if path = item.blobId then 1 else 0 := by
        by_cases hit : path = item.blobId
        · simp [released, here, onPath, hit]
        · simp [released, here, onPath, hit, Ne.symm hit]
      rw [swept, tail, same, BlobManager.eraseSession_count here, counted]
      split <;> omega

theorem offered_count {m : BlobManager H} {session : Bool} {h : H}
    {answered : List (SessionId × Bool)} (once : (answered.map (·.1)).Nodup)
    (known : ∀ s ∈ answered.map (·.1), ∃ item, m.sessions.lookup s = some item) (now : Time)
    (id : SessionId) (flags : UInt16) (path : Path) (accepted : Bool) (q : Path) :
    ((BlobManager.getSession session m).2.offered now h id flags path answered accepted).openCount q =
      m.openCount q - released m answered q + if accepted ∧ q = path then 1 else 0 := by
  have start := BlobManager.getSession_sessions session m
  have read : (BlobManager.getSession session m).2.openCount q = m.openCount q := by
    rw [BlobManager.getSession_keeps]
    rfl
  have freed : released (BlobManager.getSession session m).2 answered q = released m answered q := by
    simp only [released, start]
  have lowered := sweep_count (m := (BlobManager.getSession session m).2) (h := h) once
    (by rw [start]; exact known) q
  rw [read, freed] at lowered
  cases accepted with
  | true =>
    simp only [BlobManager.offered, if_true, BlobManager.associate_count, lowered, true_and]
    split <;> omega
  | false =>
    simp only [BlobManager.offered, Bool.false_eq_true, if_false, lowered, false_and]
    omega

theorem offered_held {m : BlobManager H} {session : Bool} {id : SessionId}
    (issued : (BlobManager.getSession session m).1 = some id) {now : Time} {h : H} {flags : UInt16}
    {path : Path} {answered : List (SessionId × Bool)} {accepted : Bool} (tables : Tables m)
    (after : Tables
      ((BlobManager.getSession session m).2.offered now h id flags path answered accepted))
    {s : SessionId} (different : s ≠ id) (g : H) :
    s ∈ ((BlobManager.getSession session m).2.offered now h id flags path answered accepted).heldBy g ↔
      s ∈ m.heldBy g ∧ (s, true) ∉ answered := by
  rw [after.held, tables.held, BlobManager.offered_lookup issued, if_neg different]
  by_cases swept : (s, true) ∈ answered
  · simp [swept]
  · simp [swept]

theorem stale_iff {log : List (Record H)} {w : World H} (sound : Sound w) (timed : Timed log w)
    (h : H) (timeNow : Time) (s : SessionId) :
    s ∈ w.manager.heldBy h ∧ w.manager.Stale timeNow s ↔
      ∃ item last, w.manager.sessions.lookup s = some item ∧ item.handler = some h ∧
        lastAction log s = some last ∧ timeNow - last ≥ w.manager.sessionTimeout := by
  rw [sound.tables.held]
  constructor
  · rintro ⟨⟨item, known, owner⟩, other, also, due⟩
    rw [known] at also
    cases also
    exact ⟨item, _, known, owner, timed s item known, due⟩
  · rintro ⟨item, last, known, owner, acted, due⟩
    have same : some last = some item.lastActionTime := acted.symm.trans (timed s item known)
    cases same
    exact ⟨⟨item, known, owner⟩, item, known, due⟩

theorem refused_open_quiet {w v : World H} {clock : Clock} {flags : UInt16} {path : Path}
    {session : Bool} {answer : BlobManager.Opened} {calls : List (Event H)}
    (more : v.calls = w.calls ++ calls)
    (outcome : BlobManager.OpenOutcome A w clock flags path session answer v)
    (refused : (BlobManager.getHandler A path w).1 = none ∨
      (BlobManager.getSession session w.manager).1 = none ∨
      flags &&& (OpenFlags.read ||| OpenFlags.write) = 0) :
    ∀ e ∈ calls, ∀ s, e.call ≠ .expire s := by
  have only : ∀ {probes : List (Event H)} {found : Option H},
      Routed A path w.calls w.manager.handlers probes found → w.calls ++ probes = w.calls ++ calls →
      ∀ e ∈ calls, ∀ s, e.call ≠ .expire s := by
    intro probes found routed same e he s expires
    rw [← List.append_cancel_left same] at he
    rw [routed.asks e he] at expires
    cases expires
  cases outcome with
  | noHandler routed => exact only routed more
  | noSession routed exhausted => exact only routed more
  | noFlags routed issued unset => exact only routed more
  | @tried probes h id answered accepted routed issued set once exact =>
    rcases refused with lacking | exhausted | unset
    · cases (getHandler_iff.mpr ⟨probes, routed⟩).symm.trans lacking
    · rw [issued] at exhausted
      cases exhausted
    · exact absurd unset set

/-- Which sessions one open expires, what becomes of them, and that nothing else expires any. -/
theorem stale_expiry_exact (A : Answers H) (sessionTimeout : Time) (next : UInt16)
    (requests : List (Clock × ManagerCall H)) (clock : Clock) :
    let log := (history A sessionTimeout next requests).1
    let w := (history A sessionTimeout next requests).2
    (∀ flags path session,
      let r := (step A w (clock, .open flags path session)).1
      let v := (step A w (clock, .open flags path session)).2.manager
      (∀ h, (BlobManager.getHandler A path w).1 = some h ↔
        ∃ probes, Routed A path w.calls w.manager.handlers probes (some h)) ∧
      (∀ h id, (BlobManager.getHandler A path w).1 = some h →
        (BlobManager.getSession session w.manager).1 = some id →
        flags &&& (OpenFlags.read ||| OpenFlags.write) ≠ 0 →
        ∃ probes answered accepted, Routed A path w.calls w.manager.handlers probes (some h) ∧
          r.calls = probes ++ answered.map (fun a => ⟨h, .expire a.1, a.2⟩) ++
            [⟨h, .open id flags path, accepted⟩] ∧
          (∀ e ∈ probes, e.call = .canHandleBlob path) ∧
          (answered.map (·.1)).Nodup ∧
          (∀ s, s ∈ answered.map (·.1) ↔ ∃ item last, w.manager.sessions.lookup s = some item ∧
            item.handler = some h ∧ lastAction log s = some last ∧
            clock.first - last ≥ sessionTimeout) ∧
          w.manager.sessions.lookup id = none ∧
          (v.sessions.lookup id).isSome = accepted ∧
          (∀ s, s ≠ id → v.sessions.lookup s =
            if (s, true) ∈ answered then none else w.manager.sessions.lookup s) ∧
          (∀ s, s ≠ id → ∀ g, s ∈ v.heldBy g ↔ s ∈ w.manager.heldBy g ∧ (s, true) ∉ answered) ∧
          (∀ q, v.openCount q = w.manager.openCount q - released w.manager answered q +
            if accepted ∧ q = path then 1 else 0) ∧
          (∀ s, s ≠ id → lastAction (log ++ [r]) s = lastAction log s) ∧
          ((∀ a ∈ answered, a.2 = true) → ∀ s item last, s ≠ id →
            v.sessions.lookup s = some item → item.handler = some h →
            lastAction log s = some last → clock.first - last < sessionTimeout)) ∧
      ((BlobManager.getHandler A path w).1 = none ∨
        (BlobManager.getSession session w.manager).1 = none ∨
        flags &&& (OpenFlags.read ||| OpenFlags.write) = 0 →
        ∀ e ∈ r.calls, ∀ s, e.call ≠ .expire s)) ∧
    (∀ call : ManagerCall H, (∀ flags path session, call ≠ .open flags path session) →
      ∀ e ∈ (step A w (clock, call)).1.calls, ∀ s, e.call ≠ .expire s) := by
  intro log w
  have sound : Sound w := history_sound A sessionTimeout next requests
  have timed : Timed log w := history_timed A sessionTimeout next requests
  have timeout : w.manager.sessionTimeout = sessionTimeout :=
    history_sessionTimeout A sessionTimeout next requests
  refine ⟨?_, ?_⟩
  · intro flags path session
    obtain ⟨answer, calls, u, stepped, more, outcome⟩ := open_step (A := A) sound clock flags path session
    have after : Sound u := by
      have next := sound.step (A := A) (clock, .open flags path session)
      rwa [stepped] at next
    rw [stepped]
    intro r v
    refine ⟨fun h => getHandler_iff, ?_, refused_open_quiet more outcome⟩
    intro h id found issued set
    cases outcome with
    | noHandler routed => cases (getHandler_iff.mpr ⟨_, routed⟩).symm.trans found
    | noSession routed exhausted => rw [issued] at exhausted; cases exhausted
    | noFlags routed other unset => exact absurd unset set
    | @tried probes _ _ answered accepted routed other _ once exact =>
      rw [issued] at other
      cases other
      have made := BlobManager.tried_calls more
      cases (getHandler_iff.mpr ⟨probes, routed⟩).symm.trans found
      have stale : ∀ s, s ∈ answered.map (·.1) ↔ ∃ item last,
          w.manager.sessions.lookup s = some item ∧ item.handler = some h ∧
          lastAction log s = some last ∧ clock.first - last ≥ sessionTimeout := by
        intro s
        rw [exact, stale_iff sound timed, timeout]
      have present : ∀ s ∈ answered.map (·.1), ∃ item, w.manager.sessions.lookup s = some item := by
        intro s hs
        obtain ⟨item, _, known, _⟩ := (stale s).mp hs
        exact ⟨item, known⟩
      have lookup := BlobManager.offered_lookup issued clock.second h flags path answered accepted
      refine ⟨probes, answered, accepted, routed, made, routed.asks, once, stale,
        BlobManager.getSession_free issued, ?_, ?_,
        fun s different k => offered_held issued sound.tables after.tables different k,
        offered_count once present clock.second id flags path accepted, ?_, ?_⟩
      · rw [lookup, if_pos rfl]
        cases accepted <;> rfl
      · intro s different
        rw [lookup, if_neg different]
      · intro s different
        have touched : r.touches = if accepted then some (id, some clock.second) else none := by
          cases accepted <;> rfl
        cases accepted with
        | true => rw [lastAction_touched touched, if_neg different]
        | false => rw [lastAction_idle touched]
      · intro all s item last different known owner acted
        rw [lookup, if_neg different] at known
        split_ifs at known with expired
        by_contra due
        obtain ⟨a, inside, same⟩ := List.mem_map.mp
          ((stale s).mpr ⟨item, last, known, owner, acted, not_lt.mp due⟩)
        have freed : (s, true) = a := Prod.ext same.symm (all a inside).symm
        exact expired (freed ▸ inside)
  · intro call unopened e he s expires
    rcases call.kinds with ⟨t, required, forwarded, shape⟩ | ⟨flags, path, session, rfl⟩ |
      ⟨free, unopened⟩
    · rcases session_step (A := A) sound clock shape with ⟨item, h, reply, _, stepped⟩ |
        ⟨refusal, _, stepped⟩
      · rw [stepped, List.mem_singleton] at he
        subst he
        have forwards : forwarded = .expire s := expires
        rw [forwards] at shape
        cases call <;> cases shape
      · rw [stepped] at he
        cases he
    · exact unopened flags path session rfl
    · have silent := quiet_record (A := A) (w := w) clock free unopened e he
      rw [expires] at silent
      cases silent

end PhosphorBlobs
