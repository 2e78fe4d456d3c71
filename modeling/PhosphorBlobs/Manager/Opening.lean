import PhosphorBlobs.Manager.Outcomes

/-! What an open request can do. Allocation of the id, the flag check and the clean-up of
stale sessions come before the handler is called, and each can end the request. -/
namespace PhosphorBlobs

variable {H : Type}

namespace BlobManager

theorem probe_free {sessions : Table SessionId (SessionInfo H)} {left : Nat} {next : UInt16}
    {id : SessionId} (issued : (probe sessions left next).1 = some id) :
    sessions.lookup id = none := by
  induction left generalizing next with
  | zero => cases issued
  | succ left ih =>
    unfold probe at issued
    split at issued
    · rename_i free
      cases issued
      exact Option.isNone_iff_eq_none.mp free
    · exact ih issued

theorem getSession_free {m : BlobManager H} {sess : Bool} {id : SessionId}
    (issued : (getSession sess m).1 = some id) : m.sessions.lookup id = none := by
  cases sess with
  | false => cases issued
  | true => exact probe_free issued

theorem getSession_keeps (sess : Bool) (m : BlobManager H) :
    (getSession sess m).2 = { m with next := (getSession sess m).2.next } := by
  cases sess <;> rfl

theorem getSession_sessions (sess : Bool) (m : BlobManager H) :
    (getSession sess m).2.sessions = m.sessions := by
  rw [getSession_keeps]

def Stale (m : BlobManager H) (timeNow : Time) (s : SessionId) : Prop :=
  ∃ info, m.sessions.lookup s = some info ∧ timeNow - info.lastActionTime ≥ m.sessionTimeout

theorem collectExpired_present (timeNow : Time) (m : BlobManager H) (ids : List SessionId)
    (present : ∀ s ∈ ids, ∃ info, m.sessions.lookup s = some info) (found : OrderedSet SessionId) :
    (collectExpired timeNow ids found m).2 = m ∧
      ∀ s, s ∈ (collectExpired timeNow ids found m).1 ↔ s ∈ found ∨ s ∈ ids ∧ m.Stale timeNow s := by
  induction ids generalizing found with
  | nil => simp [collectExpired]
  | cons id rest ih =>
    obtain ⟨info, known⟩ := present id List.mem_cons_self
    have later := ih fun s hs => present s (List.mem_cons_of_mem id hs)
    have own : m.Stale timeNow id ↔ timeNow - info.lastActionTime ≥ m.sessionTimeout := by
      simp [Stale, known]
    simp only [collectExpired, Table.subscript_present known]
    by_cases due : timeNow - info.lastActionTime ≥ m.sessionTimeout
    · obtain ⟨same, member⟩ := later (found.insert id)
      rw [if_pos due]
      refine ⟨same, fun s => ?_⟩
      rw [member, OrderedSet.mem_insert, List.mem_cons]
      constructor
      · rintro ((rfl | old) | ⟨inside, stale⟩)
        · exact .inr ⟨.inl rfl, own.mpr due⟩
        · exact .inl old
        · exact .inr ⟨.inr inside, stale⟩
      · rintro (old | ⟨rfl | inside, stale⟩)
        · exact .inl (.inr old)
        · exact .inl (.inl rfl)
        · exact .inr ⟨inside, stale⟩
    · obtain ⟨same, member⟩ := later found
      rw [if_neg due]
      refine ⟨same, fun s => ?_⟩
      rw [member, List.mem_cons]
      constructor
      · rintro (old | ⟨inside, stale⟩)
        · exact .inl old
        · exact .inr ⟨.inr inside, stale⟩
      · rintro (old | ⟨rfl | inside, stale⟩)
        · exact .inl old
        · exact absurd (own.mp stale) due
        · exact .inr ⟨inside, stale⟩

variable [DecidableEq H]

/-- The sessions of the answered expire calls that came back true are gone. -/
def sweep (handler : H) (answered : List (SessionId × Bool)) (m : BlobManager H) : BlobManager H :=
  answered.foldl (fun m a => if a.2 then m.eraseSession handler a.1 else m) m

def expiry (handler : H) (answered : SessionId × Bool) : Event H :=
  ⟨handler, .expire answered.1, answered.2⟩

theorem expireEach_sweeps (A : Answers H) (handler : H) (ids : List SessionId) (w : World H) :
    ∃ answered : List (SessionId × Bool), answered.map (·.1) = ids ∧
      (expireEach A handler ids w).2 =
        ⟨w.manager.sweep handler answered, w.calls ++ answered.map (expiry handler)⟩ := by
  induction ids generalizing w with
  | nil => exact ⟨[], rfl, by simp [expireEach, sweep]⟩
  | cons id rest ih =>
    obtain ⟨answered, asked, after⟩ := ih
      ⟨if A handler (.expire id) w.calls = true then w.manager.eraseSession handler id
        else w.manager, w.calls ++ [⟨handler, .expire id, A handler (.expire id) w.calls⟩]⟩
    refine ⟨(id, A handler (.expire id) w.calls) :: answered, by simp [asked], ?_⟩
    simpa [expireEach, sweep, expiry] using after

theorem eraseSession_sessions (handler : H) (s : SessionId) (m : BlobManager H) :
    (m.eraseSession handler s).sessions = m.sessions.erase s := by
  unfold eraseSession
  split
  · rename_i absent
    apply Finmap.ext_lookup
    intro t
    rw [Table.lookup_erase_if]
    split
    · rename_i same; rw [same, absent]
    · rfl
  · rfl

omit [DecidableEq H] in
theorem touch_lookup (m : BlobManager H) (now : Time) (s : SessionId) (item : SessionInfo H)
    (t : SessionId) : (m.touch now s item).sessions.lookup t =
      if t = s then some { item with lastActionTime := now } else m.sessions.lookup t :=
  Table.lookup_insert_if s t _ m.sessions

theorem settled_lookup (m : BlobManager H) (now : Time) (s : SessionId) (item : SessionInfo H)
    (e : Event H) (t : SessionId) : (m.settled now s item e).sessions.lookup t =
      if t = s then (if e.ends then none else some { item with lastActionTime := now })
      else m.sessions.lookup t := by
  unfold settled
  by_cases ended : e.ends = true
  · rw [if_pos ended, if_pos ended, eraseSession_sessions, Table.lookup_erase_if, touch_lookup]
    by_cases same : t = s
    · rw [if_pos same, if_pos same]
    · rw [if_neg same, if_neg same, if_neg same]
  · rw [if_neg ended, if_neg ended, touch_lookup]

theorem sweep_lookup (handler : H) (answered : List (SessionId × Bool)) (m : BlobManager H)
    (s : SessionId) : (m.sweep handler answered).sessions.lookup s =
      if (s, true) ∈ answered then none else m.sessions.lookup s := by
  induction answered generalizing m with
  | nil => simp [sweep]
  | cons a rest ih =>
    obtain ⟨id, expired⟩ := a
    have step : m.sweep handler ((id, expired) :: rest) =
        (if expired then m.eraseSession handler id else m).sweep handler rest := rfl
    rw [step, ih]
    cases expired with
    | false => simp
    | true =>
      simp only [if_true, eraseSession_sessions, Table.lookup_erase_if, List.mem_cons,
        Prod.mk.injEq, and_true]
      by_cases same : s = id <;> simp [same]

theorem associate_lookup (m : BlobManager H) (now : Time) (h : H) (s t : SessionId)
    (flags : UInt16) (path : Path) : (m.associate now h s flags path).sessions.lookup t =
      if t = s then some ⟨path, some h, flags, now⟩ else m.sessions.lookup t :=
  Table.lookup_insert_if s t _ m.sessions

/-- The manager after the handler was offered the session: its stale sessions are swept and
the new one is associated if it was accepted. -/
def offered (m : BlobManager H) (now : Time) (h : H) (id : SessionId) (flags : UInt16) (path : Path)
    (answered : List (SessionId × Bool)) (accepted : Bool) : BlobManager H :=
  if accepted then (m.sweep h answered).associate now h id flags path else m.sweep h answered

theorem offered_lookup {m : BlobManager H} {session : Bool} {id : SessionId}
    (issued : (getSession session m).1 = some id) (now : Time) (h : H) (flags : UInt16) (path : Path)
    (answered : List (SessionId × Bool)) (accepted : Bool) (s : SessionId) :
    ((getSession session m).2.offered now h id flags path answered accepted).sessions.lookup s =
      if s = id then (if accepted then some ⟨path, some h, flags, now⟩ else none)
      else if (s, true) ∈ answered then none else m.sessions.lookup s := by
  have free : m.sessions.lookup id = none := getSession_free issued
  cases accepted with
  | true => simp only [offered, if_true, associate_lookup, sweep_lookup, getSession_sessions]
  | false =>
    simp only [offered, Bool.false_eq_true, if_false, sweep_lookup, getSession_sessions]
    split_ifs with swept same same
    · rfl
    · rfl
    · rw [same, free]
    · rfl

theorem eraseSession_keeps (handler : H) (s : SessionId) (m : BlobManager H) :
    (m.eraseSession handler s).handlers = m.handlers ∧
      (m.eraseSession handler s).sessionTimeout = m.sessionTimeout ∧
      (m.eraseSession handler s).ids = m.ids ∧ (m.eraseSession handler s).next = m.next := by
  unfold eraseSession
  split <;> exact ⟨rfl, rfl, rfl, rfl⟩

theorem settled_keeps (m : BlobManager H) (now : Time) (s : SessionId) (item : SessionInfo H)
    (e : Event H) :
    (m.settled now s item e).handlers = m.handlers ∧
      (m.settled now s item e).sessionTimeout = m.sessionTimeout ∧
      (m.settled now s item e).ids = m.ids ∧ (m.settled now s item e).next = m.next := by
  unfold settled
  split
  · exact eraseSession_keeps e.handler s (m.touch now s item)
  · exact ⟨rfl, rfl, rfl, rfl⟩

theorem sweep_keeps (handler : H) (answered : List (SessionId × Bool)) (m : BlobManager H) :
    (m.sweep handler answered).handlers = m.handlers ∧
      (m.sweep handler answered).sessionTimeout = m.sessionTimeout ∧
      (m.sweep handler answered).ids = m.ids ∧ (m.sweep handler answered).next = m.next := by
  induction answered generalizing m with
  | nil => exact ⟨rfl, rfl, rfl, rfl⟩
  | cons a rest ih =>
    obtain ⟨id, expired⟩ := a
    cases expired with
    | false => exact ih m
    | true =>
      obtain ⟨h₁, h₂, h₃, h₄⟩ := eraseSession_keeps handler id m
      obtain ⟨t₁, t₂, t₃, t₄⟩ := ih (m.eraseSession handler id)
      exact ⟨t₁.trans h₁, t₂.trans h₂, t₃.trans h₃, t₄.trans h₄⟩

/-- The ids in openSessions are ids of the session map. It holds in every reachable state,
see the tables; without it cleanUpStaleSessions would create sessions. -/
def HeldPresent (m : BlobManager H) : Prop :=
  ∀ h, ∀ s ∈ m.heldBy h, ∃ info, m.sessions.lookup s = some info

theorem cleanUpStaleSessions_sweeps (A : Answers H) (timeNow : Time) (handler : H) (w : World H)
    (present : w.manager.HeldPresent) :
    ∃ answered : List (SessionId × Bool), (answered.map (·.1)).Nodup ∧
      (∀ s, s ∈ answered.map (·.1) ↔ s ∈ w.manager.heldBy handler ∧ w.manager.Stale timeNow s) ∧
      (cleanUpStaleSessions A timeNow handler w).2 =
        ⟨w.manager.sweep handler answered, w.calls ++ answered.map (expiry handler)⟩ := by
  cases known : w.manager.openSessions.lookup handler with
  | none =>
    refine ⟨[], List.nodup_nil, ?_, by simp [cleanUpStaleSessions, known, sweep]⟩
    simp [heldBy, known]
  | some held =>
    have here : w.manager.heldBy handler = held := by simp [heldBy, known]
    obtain ⟨same, member⟩ := collectExpired_present timeNow w.manager held.elems
      (fun s hs => present handler s (here ▸ hs)) ∅
    obtain ⟨answered, asked, after⟩ := expireEach_sweeps A handler
      (collectExpired timeNow held.elems ∅ w.manager).1.elems w
    refine ⟨answered, asked ▸ OrderedSet.nodup _, fun s => ?_, ?_⟩
    · rw [asked, here]
      simpa [OrderedSet.mem_def] using member s
    · simpa [cleanUpStaleSessions, known, same] using after

/-- Everything one open request can do, in the order of its checks. -/
inductive OpenOutcome (A : Answers H) (w : World H) (clock : Clock) (flags : UInt16) (path : Path)
    (session : Bool) : Opened → World H → Prop where
  | noHandler {probes : List (Event H)} (routed : Routed A path w.calls w.manager.handlers probes none) :
      OpenOutcome A w clock flags path session (.refused none) (w.log probes)
  | noSession {probes : List (Event H)} {h : H}
      (routed : Routed A path w.calls w.manager.handlers probes (some h))
      (exhausted : (getSession session w.manager).1 = none) :
      OpenOutcome A w clock flags path session (.refused none)
        ⟨(getSession session w.manager).2, w.calls ++ probes⟩
  | noFlags {probes : List (Event H)} {h : H} {id : SessionId}
      (routed : Routed A path w.calls w.manager.handlers probes (some h))
      (issued : (getSession session w.manager).1 = some id)
      (unset : flags &&& (OpenFlags.read ||| OpenFlags.write) = 0) :
      OpenOutcome A w clock flags path session (.refused (some id))
        ⟨(getSession session w.manager).2, w.calls ++ probes⟩
  | tried {probes : List (Event H)} {h : H} {id : SessionId}
      {answered : List (SessionId × Bool)} {accepted : Bool}
      (routed : Routed A path w.calls w.manager.handlers probes (some h))
      (issued : (getSession session w.manager).1 = some id)
      (set : flags &&& (OpenFlags.read ||| OpenFlags.write) ≠ 0)
      (once : (answered.map (·.1)).Nodup)
      (exact : ∀ s, s ∈ answered.map (·.1) ↔
        s ∈ w.manager.heldBy h ∧ w.manager.Stale clock.first s) :
      OpenOutcome A w clock flags path session
        (if accepted then .opened id else .refused (some id))
        ⟨(getSession session w.manager).2.offered clock.second h id flags path answered accepted,
          w.calls ++ probes ++ answered.map (expiry h) ++ [⟨h, .open id flags path, accepted⟩]⟩

omit [DecidableEq H] in
theorem tried_calls {past probes calls : List (Event H)} {h : H} {answered : List (SessionId × Bool)}
    {e : Event H} (more : past ++ probes ++ answered.map (expiry h) ++ [e] = past ++ calls) :
    calls = probes ++ answered.map (expiry h) ++ [e] := by
  rw [List.append_assoc, List.append_assoc] at more
  rw [List.append_assoc]
  exact (List.append_cancel_left more).symm

theorem open_outcome (A : Answers H) (clock : Clock) (flags : UInt16) (path : Path)
    (session : Bool) (w : World H) (present : w.manager.HeldPresent) :
    OpenOutcome A w clock flags path session (BlobManager.open A clock flags path session w).1
      (BlobManager.open A clock flags path session w).2 := by
  obtain ⟨probes, routed, asked⟩ := getHandler_routed A path w
  simp only [BlobManager.open, bind_apply]
  generalize (getHandler A path w).1 = found at routed
  cases found with
  | none =>
    simp only [pure_apply, asked]
    exact .noHandler routed
  | some h =>
    simp only [bind_apply, onManager_apply, asked, log_manager, log_calls]
    have spent := getSession_keeps session w.manager
    cases issued : (getSession session w.manager).1 with
    | none =>
      simp only [pure_apply]
      exact .noSession routed issued
    | some id =>
      simp only
      by_cases unset : flags &&& (OpenFlags.read ||| OpenFlags.write) = 0
      · simp only [unset, if_true, pure_apply]
        exact .noFlags routed issued unset
      · obtain ⟨answered, once, exact, swept⟩ := cleanUpStaleSessions_sweeps A clock.first h
          ⟨(getSession session w.manager).2, w.calls ++ probes⟩ (by rw [spent]; exact present)
        have held : (getSession session w.manager).2.heldBy h = w.manager.heldBy h := by
          rw [spent]; rfl
        have stale : ∀ s, (getSession session w.manager).2.Stale clock.first s ↔
            w.manager.Stale clock.first s := by
          intro s; rw [spent]; rfl
        simp only [held, stale] at exact
        simp only [unset, if_false, bind_apply, invoke_apply, swept]
        have tried := fun accepted : Bool =>
          (OpenOutcome.tried routed issued unset once exact :
            OpenOutcome A w clock flags path session _
              ⟨_, _ ++ [⟨h, .open id flags path, accepted⟩]⟩)
        rcases Bool.eq_false_or_eq_true
          (A h (.open id flags path) (w.calls ++ (probes ++ answered.map (expiry h)))) with said | said
        · simpa [said, World.log, offered] using tried true
        · simpa [said, World.log, offered] using tried false

theorem open_accepted {A : Answers H} (clock : Clock) (flags : UInt16) (path : Path) (session : Bool)
    {w : World H} {h : H} {id : SessionId} (present : w.manager.HeldPresent)
    (found : (getHandler A path w).1 = some h) (issued : (getSession session w.manager).1 = some id)
    (set : flags &&& (OpenFlags.read ||| OpenFlags.write) ≠ 0)
    (busy : ∀ s, ¬ w.manager.Stale clock.first s)
    (accepts : ∀ calls, A h (.open id flags path) calls = true) :
    (BlobManager.open A clock flags path session w).1 = .opened id ∧
      (BlobManager.open A clock flags path session w).2.manager =
        (getSession session w.manager).2.associate clock.second h id flags path := by
  obtain ⟨probes, _, asked⟩ := getHandler_routed A path w
  have spent := getSession_keeps session w.manager
  obtain ⟨answered, _, exact, swept⟩ := cleanUpStaleSessions_sweeps A clock.first h
    ⟨(getSession session w.manager).2, w.calls ++ probes⟩ (by rw [spent]; exact present)
  have none_due : answered = [] := by
    rw [← List.map_eq_nil_iff (f := (·.1)), List.eq_nil_iff_forall_not_mem]
    intro s due
    obtain ⟨info, known, since⟩ := ((exact s).mp due).2
    rw [spent] at known since
    exact busy s ⟨info, known, since⟩
  rw [none_due] at swept
  simp [BlobManager.open, found, asked, issued, set, swept, accepts, sweep, World.log]

end BlobManager

end PhosphorBlobs
