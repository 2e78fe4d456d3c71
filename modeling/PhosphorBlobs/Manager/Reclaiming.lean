import PhosphorBlobs.Manager.Allocation

/-! Stale sessions and the ids they hold. Only open expires sessions, and it takes the id of
the new session before it does, so an open that finds no id leaves the stale ones in place. -/
namespace PhosphorBlobs

variable {H : Type} [DecidableEq H]

structure Reclaimable (A : Answers H) (w : World H) (clock : Clock) (flags : UInt16) (path : Path)
    (h : H) (s : SessionId) : Prop where
  found : (BlobManager.getHandler A path w).1 = some h
  set : flags &&& (OpenFlags.read ||| OpenFlags.write) ≠ 0
  stale : ∃ item, w.manager.sessions.lookup s = some item ∧ item.handler = some h ∧
    clock.first - item.lastActionTime ≥ w.manager.sessionTimeout
  expires : ∀ expired, (⟨h, .expire s, expired⟩ : Event H) ∈
    (step A w (clock, .open flags path true)).1.calls → expired = true
  accepts : ∀ id accepted, (⟨h, .open id flags path, accepted⟩ : Event H) ∈
    (step A w (clock, .open flags path true)).1.calls → accepted = true

theorem open_succeeds_iff {A : Answers H} {w : World H} (sound : Sound w) {clock : Clock}
    {flags : UInt16} {path : Path} {h : H} {s : SessionId}
    (reclaimable : Reclaimable A w clock flags path h s) :
    (∃ id, (BlobManager.open A clock flags path true w).1 = .opened id) ↔
      ∃ id, (BlobManager.getSession true w.manager).1 = some id := by
  have stored := open_stored reclaimable.found clock flags true
  constructor
  · rintro ⟨id, opened⟩
    rw [opened] at stored
    exact ⟨id, stored.symm⟩
  · rintro ⟨id, issued⟩
    obtain ⟨answer, calls, v, stepped, more, outcome⟩ := open_step (A := A) sound clock flags path true
    have answered : (BlobManager.open A clock flags path true w).1 = answer := by
      have record := congrArg Prod.fst stepped
      injection record
    have accepts := reclaimable.accepts
    rw [stepped] at accepts
    rw [answered] at stored ⊢
    rw [issued] at stored
    cases outcome with
    | noHandler routed => cases stored
    | noSession routed exhausted => cases stored
    | noFlags routed issued unset => exact absurd unset reclaimable.set
    | @tried probes g id answered accepted routed issued set once exact =>
      cases (getHandler_iff.mpr ⟨probes, routed⟩).symm.trans reclaimable.found
      have agreed : accepted = true := accepts id accepted (by
        rw [BlobManager.tried_calls more]
        exact List.mem_append_right _ (List.mem_singleton_self _))
      exact ⟨id, if_pos agreed⟩

/-- An open with a stale session to reclaim succeeds exactly when it does not depend on
reclaiming it: an id must be free already, and it must not be the one behind the cursor. -/
theorem stale_session_reclaimed_iff (A : Answers H) (sessionTimeout : Time) (next : UInt16)
    (requests : List (Clock × ManagerCall H)) (clock : Clock) (flags : UInt16) (path : Path)
    (h : H) (s : SessionId)
    (reclaimable : Reclaimable A (history A sessionTimeout next requests).2 clock flags path h s) :
    (∃ id, (blobManager A clock (.open flags path true)
      (history A sessionTimeout next requests).2).1 = BlobManager.Opened.opened id) ↔
    ∃ id, id ≠ (history A sessionTimeout next requests).2.manager.next - 1 ∧
      (history A sessionTimeout next requests).2.manager.sessions.lookup id = none := by
  rw [← BlobManager.getSession_issues_iff]
  exact open_succeeds_iff (history_sound A sessionTimeout next requests) reclaimable

theorem stale_session_reclaimed_one :
    ∃ id, (blobManager willing ⟨100, 100⟩ (.open 1 [97] true)
      (history willing 60 0 (crowding 1)).2).1 = BlobManager.Opened.opened id := by
  have crowded := crowding_crowds 1 (by decide)
  have calls : (step willing (history willing 60 0 (crowding 1)).2
      (⟨100, 100⟩, .open 1 [97] true)).1.calls =
    [⟨(), .canHandleBlob [97], true⟩, ⟨(), .expire 0, true⟩, ⟨(), .open 1 1 [97], true⟩] := by rfl
  refine (stale_session_reclaimed_iff willing 60 0 (crowding 1) ⟨100, 100⟩ 1 [97] () 0
    ⟨willing_found crowded.handlers [97], by decide, ?_, ?_, ?_⟩).mpr ⟨7, ?_, ?_⟩
  · refine ⟨_, crowded.sessions 0, rfl, ?_⟩
    rw [crowded.sessionTimeout]
    decide
  · intro expired asked
    rw [calls] at asked
    simpa using asked
  · intro id accepted asked
    rw [calls] at asked
    have last : id = 1 ∧ accepted = true := by simpa using asked
    exact last.2
  · rw [crowded.next]
    decide
  · rw [crowded.sessions]
    rfl

theorem full_table_not_reclaimed :
    ¬ ∀ (A : Answers Unit) (sessionTimeout : Time) (next : UInt16)
      (requests : List (Clock × ManagerCall Unit)) (clock : Clock) (flags : UInt16) (path : Path)
      (h : Unit) (s : SessionId) (item : SessionInfo Unit),
      (BlobManager.getHandler A path (history A sessionTimeout next requests).2).1 = some h →
      flags &&& (OpenFlags.read ||| OpenFlags.write) ≠ 0 →
      (history A sessionTimeout next requests).2.manager.sessions.lookup s = some item →
      item.handler = some h →
      clock.first - item.lastActionTime ≥ sessionTimeout →
      (∀ calls, A h (.expire s) calls = true) →
      (∀ id calls, A h (.open id flags path) calls = true) →
      ∃ id, (blobManager A clock (.open flags path true)
        (history A sessionTimeout next requests).2).1 = BlobManager.Opened.opened id := by
  intro reclaimed
  have crowded := crowding_crowds 65536 le_rfl
  have everyone : ∀ t, (history willing 60 0 (crowding 65536)).2.manager.sessions.lookup t =
      some ⟨[97], some (), 1, 0⟩ := by
    intro t
    rw [crowded.sessions, if_pos t.toNat_lt]
  have found := willing_found crowded.handlers [97]
  obtain ⟨id, opened⟩ := reclaimed willing 60 0 (crowding 65536) ⟨100, 100⟩ 1 [97] () 0 _ found
    (by decide) (everyone 0) rfl (by decide) (fun _ => rfl) (fun _ _ => rfl)
  have stored := open_stored found ⟨100, 100⟩ 1 true
  have issued := BlobManager.getSession_free (stored.symm.trans (congrArg BlobManager.Opened.stored opened))
  rw [everyone] at issued
  cases issued

end PhosphorBlobs
