import PhosphorBlobs.Lib.Rotation
import PhosphorBlobs.Manager.Ledger

/-! Session ids. The cursor behind getSession walks round all 65536 ids, but one call looks
at 65535 of them only: the id just behind the cursor is left out. -/
namespace PhosphorBlobs

def following (id : SessionId) : SessionId := id + 1

theorem iterate_following (k : Nat) (c : SessionId) : following^[k] c = c + UInt16.ofNat k := by
  induction k with
  | zero => exact (UInt16.add_zero c).symm
  | succ k ih =>
    rw [Function.iterate_succ_apply', ih, following, UInt16.add_assoc, UInt16.ofNat_add]
    rfl

theorem following_reaches (c id : SessionId) : ∃ k < 65536, following^[k] c = id := by
  refine ⟨(id - c).toNat, (id - c).toNat_lt, ?_⟩
  rw [iterate_following, UInt16.ofNat_toNat, UInt16.add_comm, UInt16.sub_add_cancel]

theorem looked_at_iff {c id : SessionId} : (∃ k < 65535, following^[k] c = id) ↔ id ≠ c - 1 := by
  have last : following^[65535] c = c - 1 := by
    rw [iterate_following, UInt16.sub_eq_add_neg]
    rfl
  constructor
  · rintro ⟨k, bound, rfl⟩ behind
    rw [← last, iterate_following, iterate_following, UInt16.add_right_inj] at behind
    have small : k < 2 ^ 16 := by omega
    have same := congrArg UInt16.toNat behind
    rw [UInt16.toNat_ofNat_of_lt' small, UInt16.toNat_ofNat_of_lt' (by decide)] at same
    omega
  · intro other
    obtain ⟨k, bound, there⟩ := following_reaches c id
    refine ⟨k, ?_, there⟩
    by_contra far
    have end_of_round : k = 65535 := by omega
    rw [end_of_round, last] at there
    exact other there.symm

variable {H : Type}

namespace BlobManager

def isFree (m : BlobManager H) (id : SessionId) : Bool := (m.sessions.lookup id).isNone

theorem isFree_iff {m : BlobManager H} {id : SessionId} :
    m.isFree id = true ↔ m.sessions.lookup id = none := Option.isNone_iff_eq_none

theorem isFree_false {m : BlobManager H} {id : SessionId} :
    m.isFree id = false ↔ (m.sessions.lookup id).isSome = true := by
  rw [isFree, ← Option.not_isSome, Bool.not_eq_false']

theorem probe_scan (m : BlobManager H) (left : Nat) (next : UInt16) :
    probe m.sessions left next = Rotation.scan following m.isFree left next := by
  induction left generalizing next with
  | zero => rfl
  | succ left ih =>
    unfold probe Rotation.scan
    rw [ih]
    rfl

theorem getSession_scan (m : BlobManager H) :
    (getSession true m).1 = (Rotation.scan following m.isFree 0xffff m.next).1 ∧
      (getSession true m).2.next = (Rotation.scan following m.isFree 0xffff m.next).2 := by
  rw [← probe_scan]
  exact ⟨rfl, rfl⟩

theorem getSession_issues_iff (m : BlobManager H) :
    (∃ id, (getSession true m).1 = some id) ↔ ∃ id, id ≠ m.next - 1 ∧ m.sessions.lookup id = none := by
  rw [(getSession_scan m).1]
  constructor
  · rintro ⟨id, taken⟩
    obtain ⟨k, bound, there, free, _⟩ := Rotation.scan_some taken
    exact ⟨id, looked_at_iff.mp ⟨k, bound, there⟩, isFree_iff.mp free⟩
  · rintro ⟨id, other, free⟩
    obtain ⟨k, bound, there⟩ := looked_at_iff.mpr other
    cases taken : (Rotation.scan following m.isFree 0xffff m.next).1 with
    | some found => exact ⟨found, rfl⟩
    | none =>
      have busy := Rotation.scan_none_iff.mp taken k bound
      rw [there, isFree_iff.mpr free] at busy
      cases busy

/-- The first free id going up from next, modulo 65536. -/
def FirstFree (m : BlobManager H) (id : SessionId) : Prop :=
  ∃ k < 65536, m.next + UInt16.ofNat k = id ∧ m.sessions.lookup id = none ∧
    ∀ j < k, m.sessions.lookup (m.next + UInt16.ofNat j) ≠ none

theorem getSession_first {m : BlobManager H} {id : SessionId}
    (issued : (getSession true m).1 = some id) : m.FirstFree id := by
  rw [(getSession_scan m).1] at issued
  obtain ⟨k, bound, there, free, before⟩ := Rotation.scan_some issued
  refine ⟨k, by omega, by rw [← there, iterate_following], isFree_iff.mp free, ?_⟩
  intro j hj unused
  have busy := before j hj
  rw [iterate_following, isFree_iff.mpr unused] at busy
  cases busy

/-- getSession succeeds exactly when an id is free, and then issues the first one. -/
def Allocates (m : BlobManager H) : Prop :=
  ((getSession true m).1.isSome = true ↔ ∃ id, m.sessions.lookup id = none) ∧
  ∀ id, (getSession true m).1 = some id → m.FirstFree id

end BlobManager

/-- The id that getSession stored for an open, whatever became of the open afterwards. -/
def BlobManager.Opened.stored : BlobManager.Opened → Option SessionId
  | .opened session => some session
  | .refused stored => stored

def Record.issued? : Record H → Option SessionId
  | ⟨_, .open .., answer, _⟩ => BlobManager.Opened.stored answer
  | _ => none

section Cursor

variable [DecidableEq H] {A : Answers H} {w : World H}

theorem open_cursor {v : World H} {clock : Clock} {flags : UInt16} {path : Path} {session : Bool}
    {answer : BlobManager.Opened}
    (outcome : BlobManager.OpenOutcome A w clock flags path session answer v) :
    v.manager.next = w.manager.next ∧ answer.stored = none ∨
    v.manager.next = (BlobManager.getSession session w.manager).2.next ∧
      answer.stored = (BlobManager.getSession session w.manager).1 := by
  cases outcome with
  | noHandler routed => exact .inl ⟨rfl, rfl⟩
  | noSession routed exhausted => exact .inr ⟨rfl, exhausted.symm⟩
  | noFlags routed issued unset => exact .inr ⟨rfl, issued.symm⟩
  | @tried probes h id answered accepted routed issued set once exact =>
    have swept := (BlobManager.sweep_keeps h answered (BlobManager.getSession session w.manager).2).2.2.2
    rw [issued]
    cases accepted with
    | true => exact .inr ⟨swept, rfl⟩
    | false => exact .inr ⟨swept, rfl⟩

theorem issued_swept (sound : Sound w) {request : Clock × ManagerCall H} {id : SessionId}
    (issued : (step A w request).1.issued? = some id) :
    (step A w request).2.manager.next = following id ∧
      Rotation.Swept following (fun y => (w.manager.sessions.lookup y).isSome = true)
        w.manager.next id := by
  obtain ⟨clock, call⟩ := request
  cases call with
  | «open» flags path session =>
    obtain ⟨answer, calls, v, stepped, _, outcome⟩ := open_step (A := A) sound clock flags path session
    rw [stepped] at issued ⊢
    have taken : answer.stored = some id := issued
    rcases open_cursor outcome with ⟨_, untaken⟩ | ⟨moved, stored⟩
    · rw [untaken] at taken
      cases taken
    · rw [stored] at taken
      cases session with
      | false => cases taken
      | true =>
        obtain ⟨found, behind⟩ := BlobManager.getSession_scan w.manager
        rw [found] at taken
        refine ⟨moved.trans (behind.trans (Rotation.scan_behind taken)), ?_⟩
        exact (Rotation.scan_reaches taken).mono fun y busy => BlobManager.isFree_false.mp busy
  | _ => cases issued

theorem request_swept (sound : Sound w) (request : Clock × ManagerCall H) :
    Rotation.Swept following
      (fun y => (w.manager.sessions.lookup y).isSome = true ∨ (step A w request).1.issued? = some y)
      w.manager.next (step A w request).2.manager.next := by
  obtain ⟨clock, call⟩ := request
  rcases call.kinds with ⟨s, required, forwarded, shape⟩ | ⟨flags, path, session, rfl⟩ |
    ⟨free, unopened⟩
  · obtain ⟨_, _, _, kept⟩ := session_keeps (A := A) sound clock shape
    rw [kept]
    exact .refl _ _
  · obtain ⟨answer, calls, v, stepped, _, outcome⟩ := open_step (A := A) sound clock flags path session
    rw [stepped]
    rcases open_cursor outcome with ⟨kept, _⟩ | ⟨moved, stored⟩
    · rw [kept]
      exact .refl _ _
    · rw [moved]
      cases session with
      | false => exact .refl _ _
      | true =>
        obtain ⟨found, behind⟩ := BlobManager.getSession_scan w.manager
        rw [behind]
        refine (Rotation.scan_swept 0xffff w.manager.next).mono fun y seen => ?_
        rcases seen with busy | taken
        · exact .inl (BlobManager.isFree_false.mp busy)
        · exact .inr ((stored.trans found).trans taken)
  · have kept : (step A w (clock, call)).2.manager.next = w.manager.next := by
      have reached : (step A w (clock, call)).2 = (blobManager A clock call w).2 := rfl
      rcases quiet_manager A clock free unopened w with ⟨_, _, same⟩ | ⟨path, h, rfl, found⟩
      · rw [reached, same]
      · rw [reached, deleteBlob_manager A clock found]
    rw [kept]
    exact .refl _ _

/-- The id was open in some state of the run, its first and its last included, or one of the
requests took it. -/
def Met (A : Answers H) (w : World H) (requests : List (Clock × ManagerCall H)) (y : SessionId) :
    Prop :=
  (∃ past more, requests = past ++ more ∧
    ((Machine.run (step A) w past).2.manager.sessions.lookup y).isSome = true) ∨
  ∃ r ∈ (Machine.run (step A) w requests).1, r.issued? = some y

theorem run_swept (sound : Sound w) (requests : List (Clock × ManagerCall H)) :
    Rotation.Swept following (Met A w requests) w.manager.next
      (Machine.run (step A) w requests).2.manager.next := by
  induction requests generalizing w with
  | nil => exact .refl _ _
  | cons request rest ih =>
    have first : Rotation.Swept following (Met A w (request :: rest)) w.manager.next
        (step A w request).2.manager.next := by
      refine (request_swept sound request).mono fun y seen => ?_
      rcases seen with busy | taken
      · exact .inl ⟨[], _, rfl, busy⟩
      · exact .inr ⟨_, List.mem_cons_self, taken⟩
    refine first.trans ((ih (sound.step (A := A) request)).mono fun y met => ?_)
    rcases met with ⟨past, more, rfl, busy⟩ | ⟨r, later, taken⟩
    · exact .inl ⟨request :: past, more, rfl, busy⟩
    · exact .inr ⟨r, List.mem_cons_of_mem _ later, taken⟩

end Cursor

def willing : Answers Unit
  | _, .getBlobIds, _ => []
  | _, .stat _, _ | _, .sessionStat _, _ => none
  | _, .read .., _ => []
  | _, .canHandleBlob _, _ | _, .deleteBlob _, _ | _, .open .., _ | _, .write .., _
  | _, .writeMeta .., _ | _, .commit .., _ | _, .close _, _ | _, .expire _, _ => true

section Crowd

/-- The first ids up to the cursor are open, all since time zero. -/
structure Crowded (n : Nat) (w : World Unit) : Prop where
  sound : Sound w
  handlers : w.manager.handlers = [()]
  sessionTimeout : w.manager.sessionTimeout = 60
  next : w.manager.next = UInt16.ofNat n
  sessions : ∀ s, w.manager.sessions.lookup s =
    if s.toNat < n then some ⟨[97], some (), 1, 0⟩ else none

def opening : Clock × ManagerCall Unit := (⟨0, 0⟩, .open 1 [97] true)

def crowding (n : Nat) : List (Clock × ManagerCall Unit) :=
  (⟨0, 0⟩, .registerHandler (some ())) :: List.replicate n opening

theorem willing_found {w : World Unit} (handlers : w.manager.handlers = [()]) (path : Path) :
    (BlobManager.getHandler willing path w).1 = some () := by
  simp [BlobManager.getHandler, handlers, BlobManager.findHandler, willing]

theorem probe_here {H : Type} {sessions : Table SessionId (SessionInfo H)} (left : Nat)
    {next : UInt16} (free : sessions.lookup next = none) :
    BlobManager.probe sessions (left + 1) next = (some next, next + 1) :=
  if_pos (Option.isNone_iff_eq_none.mpr free)

theorem getSession_here {H : Type} {m : BlobManager H} (free : m.sessions.lookup m.next = none) :
    BlobManager.getSession true m = (some m.next, { m with next := m.next + 1 }) := by
  have taken : BlobManager.probe m.sessions 0xffff m.next = (some m.next, m.next + 1) :=
    probe_here 0xfffe free
  simp only [BlobManager.getSession, Bool.not_true, Bool.false_eq_true, if_false, taken]

theorem open_stored {H : Type} [DecidableEq H] {A : Answers H} {w : World H} {path : Path} {h : H}
    (found : (BlobManager.getHandler A path w).1 = some h) (clock : Clock) (flags : UInt16)
    (session : Bool) : (BlobManager.open A clock flags path session w).1.stored =
      (BlobManager.getSession session w.manager).1 := by
  obtain ⟨probes, _, asked⟩ := getHandler_routed A path w
  simp only [BlobManager.open, bind_apply, found, asked, onManager_apply, log_manager]
  cases (BlobManager.getSession session w.manager).1 with
  | none => rfl
  | some id =>
    simp only
    split
    · rfl
    · simp only [bind_apply]
      split <;> rfl

theorem Crowded.grow {n : Nat} {w : World Unit} (crowded : Crowded n w) (room : n < 65536) :
    (step willing w opening).1.issued? = some (UInt16.ofNat n) ∧
      Crowded (n + 1) (step willing w opening).2 := by
  have small : n < 2 ^ 16 := room
  have number : (UInt16.ofNat n).toNat = n := UInt16.toNat_ofNat_of_lt' small
  have free : w.manager.sessions.lookup w.manager.next = none := by
    rw [crowded.next, crowded.sessions, number, if_neg (Nat.lt_irrefl n)]
  have issued := getSession_here free
  have recent : ∀ s, ¬ w.manager.Stale 0 s := by
    rintro s ⟨info, known, since⟩
    rw [crowded.sessions] at known
    split_ifs at known
    cases known
    rw [crowded.sessionTimeout] at since
    exact absurd since (by decide)
  obtain ⟨answer, reached⟩ := BlobManager.open_accepted (A := willing) ⟨0, 0⟩ 1 [97] true
    crowded.sound.tables.present (willing_found crowded.handlers [97])
    (congrArg Prod.fst issued) (by decide) recent (fun _ => rfl)
  rw [issued, crowded.next] at reached
  have manager : (step willing w opening).2.manager = _ := reached
  refine ⟨?_, crowded.sound.step opening, ?_, ?_, ?_, fun s => ?_⟩
  · rw [← crowded.next]
    exact congrArg BlobManager.Opened.stored answer
  · rw [manager]
    exact crowded.handlers
  · rw [manager]
    exact crowded.sessionTimeout
  · rw [manager, UInt16.ofNat_add]
    rfl
  · rw [manager, BlobManager.associate_lookup]
    by_cases last : s = UInt16.ofNat n
    · rw [if_pos last, last, number, if_pos (Nat.lt_succ_self n)]
    · have other : s.toNat ≠ n := by
        intro same
        exact last (UInt16.toNat_inj.mp (same.trans number.symm))
      rw [if_neg last, crowded.sessions]
      split_ifs with before before before
      · rfl
      · omega
      · omega
      · rfl

theorem crowding_crowds (n : Nat) (room : n ≤ 65536) :
    Crowded n (history willing 60 0 (crowding n)).2 := by
  induction n with
  | zero =>
    have registered : Crowded 0 (step willing (World.fresh 60 0) (⟨0, 0⟩, .registerHandler (some ()))).2 :=
      ⟨(Sound.fresh 60 0).step _, rfl, rfl, rfl, fun _ => rfl⟩
    exact registered
  | succ n ih =>
    have one_more : crowding (n + 1) = crowding n ++ [opening] := by
      rw [crowding, List.replicate_succ', ← List.cons_append, crowding]
    rw [one_more, history_concat]
    exact ((ih (by omega)).grow (by omega)).2

theorem Crowded.vacate {n : Nat} {w : World Unit} (crowded : Crowded n w) (full : n = 65536)
    (s : SessionId) :
    (∀ t, (step willing w (⟨0, 0⟩, .close s)).2.manager.sessions.lookup t = none ↔ t = s) ∧
      (step willing w (⟨0, 0⟩, .close s)).2.manager.next = 0 ∧
      (step willing w (⟨0, 0⟩, .close s)).2.manager.handlers = [()] := by
  have everyone : ∀ t, w.manager.sessions.lookup t = some ⟨[97], some (), 1, 0⟩ := by
    intro t
    have bound : t.toNat < 2 ^ 16 := t.toNat_lt
    rw [crowded.sessions, if_pos (by omega)]
  have next : w.manager.next = 0 := by
    rw [crowded.next, full]
    rfl
  have shape : (ManagerCall.close s : ManagerCall Unit).forward? =
    some (s, BlobManager.anyFlags, .close s) := rfl
  obtain ⟨handlers, _, _, cursor⟩ := session_keeps (A := willing) crowded.sound ⟨0, 0⟩ shape
  refine ⟨fun t => ?_, cursor.trans next, handlers.trans crowded.handlers⟩
  rcases session_step (A := willing) crowded.sound ⟨0, 0⟩ shape with
    ⟨item, h, reply, serves, stepped⟩ | ⟨refusal, refuses, _⟩
  · rw [stepped, BlobManager.settled_lookup, everyone]
    by_cases same : t = s
    · rw [if_pos same]
      exact ⟨fun _ => same, fun _ => rfl⟩
    · rw [if_neg same]
      exact ⟨nofun, fun here => absurd here same⟩
  · exact absurd (refuses _ (everyone s)) (by decide)

end Crowd

/-- The allocation is complete unless the one free id is the one behind the cursor. This is
about any set of open sessions and any cursor, whether they are reached or not. -/
theorem session_allocation_iff (m : BlobManager H) :
    m.Allocates ↔ ¬ ∀ id, m.sessions.lookup id = none ↔ id = m.next - 1 := by
  constructor
  · rintro ⟨complete, _⟩ only
    obtain ⟨id, issued⟩ := Option.isSome_iff_exists.mp (complete.mpr ⟨_, (only (m.next - 1)).mpr rfl⟩)
    obtain ⟨other, different, free⟩ := m.getSession_issues_iff.mp ⟨id, issued⟩
    exact different ((only other).mp free)
  · intro spread
    refine ⟨⟨?_, ?_⟩, fun id issued => BlobManager.getSession_first issued⟩
    · intro some_issued
      obtain ⟨id, issued⟩ := Option.isSome_iff_exists.mp some_issued
      exact ⟨id, BlobManager.getSession_free issued⟩
    · rintro ⟨id, free⟩
      rw [Option.isSome_iff_exists, BlobManager.getSession_issues_iff]
      by_contra none_looked_at
      have only : ∀ other, m.sessions.lookup other = none → other = m.next - 1 := by
        intro other unused
        by_contra different
        exact none_looked_at ⟨other, different, unused⟩
      refine spread fun other => ⟨only other, ?_⟩
      rintro rfl
      rw [← only id free]
      exact free

theorem last_id_missed :
    ¬ ∀ (A : Answers Unit) (sessionTimeout : Time) (next : UInt16)
      (requests : List (Clock × ManagerCall Unit)),
      (history A sessionTimeout next requests).2.manager.Allocates := by
  intro allocates
  have crowded := crowding_crowds 65536 le_rfl
  obtain ⟨free, next, _⟩ := crowded.vacate rfl 65535
  have complete := allocates willing 60 0 (crowding 65536 ++ [(⟨0, 0⟩, .close 65535)])
  rw [history_concat, session_allocation_iff, next] at complete
  exact complete free

section Rotation

variable [DecidableEq H]

/-- Ids go round: between two requests that take the same id, every other id was open at
some moment or was taken by a request in between. -/
theorem session_ids_rotate (A : Answers H) (sessionTimeout : Time) (next : UInt16)
    (past between : List (Clock × ManagerCall H)) (first second : Clock × ManagerCall H)
    (id : SessionId)
    (issued : (step A (history A sessionTimeout next past).2 first).1.issued? = some id)
    (again : (step A (history A sessionTimeout next (past ++ first :: between)).2 second).1.issued? =
      some id) (y : SessionId) (other : y ≠ id) :
    Met A (history A sessionTimeout next (past ++ [first])).2 between y := by
  have sound := history_sound A sessionTimeout next past
  have after := history_sound A sessionTimeout next (past ++ [first])
  have start := history_concat A sessionTimeout next past first
  have reached : (history A sessionTimeout next (past ++ first :: between)).2 =
      (Machine.run (step A) (history A sessionTimeout next (past ++ [first])).2 between).2 := by
    rw [List.append_cons, history_append]
  have behind := (issued_swept sound issued).1
  rw [reached] at again
  have last := (issued_swept (Machine.run_invariant (step A) Sound
    (fun _ request sound => sound.step request) after between) again).2
  have tail : Rotation.Swept following
      (Met A (history A sessionTimeout next (past ++ [first])).2 between) _ id :=
    last.mono fun z busy => .inl ⟨between, [], (List.append_nil between).symm, busy⟩
  have round := (run_swept (A := A) after between).trans tail
  rw [start, behind] at round
  rw [start]
  obtain ⟨n, _, there⟩ := following_reaches id y
  exact round.round ⟨n, there⟩ other

/-- The crowd takes every id once. Closing the first then lets it be taken again. -/
theorem session_ids_rotate_crowd :
    Met willing (history willing 60 0 (crowding 0 ++ [opening])).2
      (List.replicate 65535 opening ++ [(⟨0, 0⟩, .close 0)]) 7 := by
  have first := ((crowding_crowds 0 (by decide)).grow (by decide)).1
  have run : crowding 0 ++ opening :: (List.replicate 65535 opening ++ [(⟨0, 0⟩, .close 0)]) =
      crowding 65536 ++ [(⟨0, 0⟩, .close 0)] := by
    have tries : (65536 : Nat) = 65535 + 1 := rfl
    rw [tries, crowding, crowding, List.replicate_succ]
    rfl
  obtain ⟨free, next, handlers⟩ := (crowding_crowds 65536 le_rfl).vacate rfl 0
  have again : (step willing (history willing 60 0 (crowding 0 ++ opening ::
      (List.replicate 65535 opening ++ [(⟨0, 0⟩, .close 0)]))).2 opening).1.issued? = some 0 := by
    rw [run, history_concat]
    refine (open_stored (willing_found handlers [97]) ⟨0, 0⟩ 1 true).trans ?_
    rw [getSession_here ((free _).mpr next), next]
  exact session_ids_rotate willing 60 0 (crowding 0) _ opening opening 0 first again 7 (by decide)

end Rotation

section Retry

variable [DecidableEq H] {A : Answers H} {w : World H}

structure Waiting (id : SessionId) (m : BlobManager H) : Prop where
  next : m.next = id
  free : m.sessions.lookup id = none

theorem Waiting.request {id : SessionId} (sound : Sound w) (waiting : Waiting id w.manager)
    {request : Clock × ManagerCall H}
    (unopened : ∀ flags path session, request.2 ≠ .open flags path session) :
    Waiting id (step A w request).2.manager := by
  obtain ⟨clock, call⟩ := request
  rcases call.kinds with ⟨s, required, forwarded, shape⟩ | ⟨flags, path, session, rfl⟩ | ⟨free, _⟩
  · obtain ⟨_, _, _, kept⟩ := session_keeps (A := A) sound clock shape
    refine ⟨kept.trans waiting.next, ?_⟩
    rcases session_step (A := A) sound clock shape with ⟨item, h, reply, serves, stepped⟩ |
      ⟨refusal, _, stepped⟩
    · have other : id ≠ s := by
        rintro rfl
        have known := serves.known
        rw [waiting.free] at known
        cases known
      rw [stepped, BlobManager.settled_lookup, if_neg other]
      exact waiting.free
    · rw [stepped]
      exact waiting.free
  · exact absurd rfl (unopened flags path session)
  · have reached : (step A w (clock, call)).2 = (blobManager A clock call w).2 := rfl
    rw [reached]
    rcases quiet_manager A clock free unopened w with ⟨_, _, same⟩ | ⟨path, h, rfl, found⟩
    · rw [same]
      exact ⟨waiting.next, waiting.free⟩
    · rw [deleteBlob_manager A clock found]
      exact ⟨waiting.next, waiting.free⟩

theorem Waiting.requests {id : SessionId} (sound : Sound w) (waiting : Waiting id w.manager)
    (requests : List (Clock × ManagerCall H))
    (unopened : ∀ r ∈ requests, ∀ flags path session, r.2 ≠ .open flags path session) :
    Waiting id (Machine.run (step A) w requests).2.manager := by
  induction requests generalizing w with
  | nil => exact waiting
  | cons request rest ih =>
    have next := waiting.request (A := A) sound (unopened request List.mem_cons_self)
    exact ih (sound.step request) next fun r later => unopened r (List.mem_cons_of_mem _ later)

omit [DecidableEq H] in
theorem getSession_misses {m : BlobManager H} (missed : (BlobManager.getSession true m).1 = none)
    {id : SessionId} (free : m.sessions.lookup id = none) :
    id = m.next - 1 ∧ Waiting id (BlobManager.getSession true m).2 := by
  obtain ⟨found, behind⟩ := m.getSession_scan
  rw [found] at missed
  have last : id = m.next - 1 := by
    by_contra other
    obtain ⟨k, bound, there⟩ := looked_at_iff.mpr other
    have busy := Rotation.scan_none_iff.mp missed k bound
    rw [there, BlobManager.isFree_iff.mpr free] at busy
    cases busy
  refine ⟨last, ?_, ?_⟩
  · rw [behind, Rotation.scan_exhausted missed, iterate_following, last, UInt16.sub_eq_add_neg]
    rfl
  · rw [BlobManager.getSession_keeps]
    exact free

theorem open_exhausted {path : Path} {h : H} (found : (BlobManager.getHandler A path w).1 = some h)
    {session : Bool} (exhausted : (BlobManager.getSession session w.manager).1 = none)
    (clock : Clock) (flags : UInt16) :
    (BlobManager.open A clock flags path session w).2.manager =
      (BlobManager.getSession session w.manager).2 := by
  obtain ⟨probes, _, asked⟩ := getHandler_routed A path w
  simp only [BlobManager.open, bind_apply, found, asked, onManager_apply, log_manager, exhausted,
    pure_apply]

omit [DecidableEq H] in
theorem getSession_only {m : BlobManager H} {id : SessionId} (behind : id = m.next - 1)
    (only : ∀ other, m.sessions.lookup other = none ↔ other = id) :
    (BlobManager.getSession true m).1 = none := by
  rw [← Option.not_isSome_iff_eq_none, Option.isSome_iff_exists, BlobManager.getSession_issues_iff]
  rintro ⟨other, different, free⟩
  exact different (((only other).mp free).trans behind)

theorem refused_handlers {past : List (Clock × ManagerCall Unit)}
    (handlers : (history willing 60 0 past).2.manager.handlers = [()])
    (missed : (BlobManager.getSession true (history willing 60 0 past).2.manager).1 = none)
    (s : SessionId) :
    (history willing 60 0 (past ++ opening :: [(⟨0, 0⟩, .close s)])).2.manager.handlers = [()] := by
  have opened : (history willing 60 0 (past ++ [opening])).2.manager =
      (BlobManager.getSession true (history willing 60 0 past).2.manager).2 := by
    rw [history_concat]
    exact open_exhausted (willing_found handlers [97]) missed ⟨0, 0⟩ 1
  have shape : (ManagerCall.close s : ManagerCall Unit).forward? =
    some (s, BlobManager.anyFlags, .close s) := rfl
  obtain ⟨same, _⟩ := session_keeps (A := willing)
    (history_sound willing 60 0 (past ++ [opening])) ⟨0, 0⟩ shape
  rw [List.append_cons, history_concat, same, opened, BlobManager.getSession_keeps]
  exact handlers

/-- The missed id is missed once. The walk that fails leaves the cursor on it, so the next open
that finds a handler takes it, whatever happens to other sessions in between. -/
theorem refused_open_retried (A : Answers H) (sessionTimeout : Time) (next : UInt16)
    (past between : List (Clock × ManagerCall H)) (first second : Clock) (flags flags' : UInt16)
    (path path' : Path) (h h' : H)
    (found : (BlobManager.getHandler A path (history A sessionTimeout next past).2).1 = some h)
    (id : SessionId) (free : (history A sessionTimeout next past).2.manager.sessions.lookup id = none)
    (refused : (step A (history A sessionTimeout next past).2
      (first, .open flags path true)).1.issued? = none)
    (unopened : ∀ r ∈ between, ∀ flags path session, r.2 ≠ .open flags path session)
    (found' : (BlobManager.getHandler A path' (history A sessionTimeout next
      (past ++ (first, .open flags path true) :: between)).2).1 = some h') :
    id = (history A sessionTimeout next past).2.manager.next - 1 ∧
    (history A sessionTimeout next (past ++ [(first, .open flags path true)])).2.manager.next = id ∧
    (step A (history A sessionTimeout next (past ++ (first, .open flags path true) :: between)).2
      (second, .open flags' path' true)).1.issued? = some id := by
  have sound := history_sound A sessionTimeout next past
  have start := history_concat A sessionTimeout next past (first, .open flags path true)
  have later : (history A sessionTimeout next (past ++ (first, .open flags path true) :: between)).2 =
      (Machine.run (step A)
        (history A sessionTimeout next (past ++ [(first, .open flags path true)])).2 between).2 := by
    rw [List.append_cons, history_append]
  rw [later, start] at found'
  rw [later, start]
  generalize (history A sessionTimeout next past).2 = w at *
  have missed : (BlobManager.getSession true w.manager).1 = none :=
    (open_stored found first flags true).symm.trans refused
  obtain ⟨behind, spent⟩ := getSession_misses missed free
  have waiting : Waiting id (step A w (first, .open flags path true)).2.manager := by
    have reached : (step A w (first, .open flags path true)).2.manager = _ :=
      open_exhausted found missed first flags
    rw [reached]
    exact spent
  have last := waiting.requests (A := A) (sound.step _) between unopened
  refine ⟨behind, waiting.next, (open_stored found' second flags' true).trans ?_⟩
  have here := last.free
  rw [← last.next] at here
  rw [getSession_here here, last.next]

/-- In the crowd, 65535 was closed with the cursor on 0. The first open fails, the second
takes it, although 7 was closed before. -/
theorem refused_open_retried_crowd :
    (step willing (history willing 60 0 ((crowding 65536 ++ [(⟨0, 0⟩, .close 65535)]) ++
      opening :: [(⟨0, 0⟩, .close 7)])).2 opening).1.issued? = some 65535 := by
  obtain ⟨free, next, handlers⟩ := (crowding_crowds 65536 le_rfl).vacate rfl 65535
  rw [← history_concat] at free next handlers
  have missed := getSession_only (by rw [next]; rfl) free
  have found := willing_found handlers [97]
  have refused := (open_stored found ⟨0, 0⟩ 1 true).trans missed
  have kept := refused_handlers handlers missed 7
  exact (refused_open_retried willing 60 0 _ [(⟨0, 0⟩, .close 7)] ⟨0, 0⟩ ⟨0, 0⟩ 1 1 [97] [97] () ()
    found 65535 ((free _).mpr rfl) refused (by simp) (willing_found kept [97])).2.2

end Retry

end PhosphorBlobs
