import PhosphorBlobs.Manager.Contract

/-! Two clients of one manager. What the first one sees of its sessions is the same with and
without the requests of the second, as long as neither names what belongs to the other. -/
namespace PhosphorBlobs

variable {H : Type} [DecidableEq H]

def callsOn (h : H) (s : SessionId) (calls : List (Event H)) : List (Event H) :=
  calls.filter fun e => e.handler = h ∧ e.call.session? = some s

theorem callsOn_append (h : H) (s : SessionId) (calls more : List (Event H)) :
    callsOn h s (calls ++ more) = callsOn h s calls ++ callsOn h s more := by
  simp [callsOn]

theorem callsOn_unrelated {h : H} {s : SessionId} {calls more : List (Event H)}
    (unrelated : ∀ e ∈ more, e.handler = h → e.call.session? ≠ some s) :
    callsOn h s (calls ++ more) = callsOn h s calls := by
  have nothing : callsOn h s more = [] := by
    simpa [callsOn] using unrelated
  rw [callsOn_append, nothing, List.append_nil]

/-- canHandleBlob is a fixed predicate of each handler, and an answer about a session is a
function of the calls the handler received for that session. -/
structure SessionLocal (A : Answers H) (can : H → Path → Bool) : Prop where
  routing : ∀ h path calls, A h (.canHandleBlob path) calls = can h path
  session : ∀ h call s calls others, HandlerCall.session? call = some s →
    callsOn h s calls = callsOn h s others → A h call calls = A h call others

def ManagerCall.session? (call : ManagerCall H) : Option SessionId := call.forward?.map (·.1)

def ManagerCall.path? : ManagerCall H → Option Path
  | .open _ path _ | .stat path | .deleteBlob path => some path
  | _ => none

def Record.closed? : Record H → Option SessionId
  | ⟨_, .close s, true, _⟩ => some s
  | _ => none

def left (mine : Finset SessionId) (r : Record H) : Finset SessionId :=
  mine.filter fun s => r.closed? ≠ some s

/-- The first client names only ids it has left. The second names none of these, and no path
routed to a handler that serves one of them. -/
def Permitted (can : H → Path → Bool) (mine : Finset SessionId) (w : World H) (own : Bool)
    (request : Clock × ManagerCall H) : Prop :=
  if own then ∃ s ∈ mine, request.2.session? = some s
  else
    (∀ s ∈ request.2.session?, s ∉ mine) ∧
    ∀ path ∈ request.2.path?, ∀ h ∈ w.manager.handlers.find? (can · path), ∀ s ∈ mine,
      (w.manager.sessions.lookup s).bind (·.handler) ≠ some h

/- The instances are named because all ids could also be searched, which takes far longer. -/
instance decidablePermitted (can : H → Path → Bool) (mine : Finset SessionId) (w : World H) :
    (own : Bool) → (request : Clock × ManagerCall H) → Decidable (Permitted can mine w own request)
  | true, request =>
    (Finset.decidableExistsAndFinset : Decidable (∃ s ∈ mine, request.2.session? = some s))
  | false, request =>
    have _ : Decidable (∀ s ∈ request.2.session?, s ∉ mine) := Option.decidableForallMem _
    have _ (h : H) : Decidable
        (∀ s ∈ mine, (w.manager.sessions.lookup s).bind (·.handler) ≠ some h) :=
      Finset.decidableDforallFinset
    inferInstanceAs (Decidable ((∀ s ∈ request.2.session?, s ∉ mine) ∧
      ∀ path ∈ request.2.path?, ∀ h ∈ w.manager.handlers.find? (can · path), ∀ s ∈ mine,
        (w.manager.sessions.lookup s).bind (·.handler) ≠ some h))

omit [DecidableEq H] in
theorem mem_left_all {mine : Finset SessionId} {records : List (Record H)} {s : SessionId} :
    s ∈ records.foldl left mine ↔ s ∈ mine ∧ ∀ r ∈ records, r.closed? ≠ some s := by
  induction records generalizing mine with
  | nil => simp
  | cons r rest ih =>
    rw [List.foldl_cons, ih, left, Finset.mem_filter, List.forall_mem_cons, and_assoc]

omit [DecidableEq H] in
theorem Routed.fixed {A : Answers H} {can : H → Path → Bool} {path : Path}
    (routing : ∀ h calls, A h (.canHandleBlob path) calls = can h path) {calls probes : List (Event H)}
    {hs : List H} {found : Option H} (routed : Routed A path calls hs probes found) :
    found = hs.find? (can · path) := by
  induction routed with
  | exhausted => rfl
  | claims said rest =>
    rw [routing] at said
    exact (List.find?_cons_of_pos (p := (can · path)) said).symm
  | passes said _ ih =>
    rw [routing] at said
    exact ih.trans (List.find?_cons_of_neg (p := (can · path)) (by simp [said])).symm

/-- The worlds with and without the second client agree on what the first one has left. -/
structure Isolated (mine : Finset SessionId) (w v : World H) : Prop where
  sound : Sound w
  view : ∀ s ∈ mine, ∃ item h, w.manager.sessions.lookup s = some item ∧ item.handler = some h ∧
    v.manager.sessions.lookup s = some item ∧ callsOn h s w.calls = callsOn h s v.calls

theorem Isolated.fewer {mine others : Finset SessionId} {w v : World H} (isolated : Isolated mine w v)
    (fewer : others ⊆ mine) : Isolated others w v :=
  ⟨isolated.sound, fun s hs => isolated.view s (fewer hs)⟩

theorem Isolated.foreign {mine : Finset SessionId} {w v u : World H} (isolated : Isolated mine w v)
    (sound : Sound u) {events : List (Event H)} (more : u.calls = w.calls ++ events)
    (kept : ∀ s ∈ mine, u.manager.sessions.lookup s = w.manager.sessions.lookup s)
    (unrelated : ∀ s ∈ mine, ∀ item h, w.manager.sessions.lookup s = some item →
      item.handler = some h → ∀ e ∈ events, e.handler = h → e.call.session? ≠ some s) :
    Isolated mine u v := by
  refine ⟨sound, fun s hs => ?_⟩
  obtain ⟨item, h, known, owner, also, same⟩ := isolated.view s hs
  refine ⟨item, h, (kept s hs).trans known, owner, also, ?_⟩
  rw [more, callsOn_unrelated (unrelated s hs item h known owner), same]

variable {A : Answers H} {can : H → Path → Bool}

theorem served_closed {w : World H} (clock : Clock) {call : ManagerCall H} {s : SessionId}
    {required : UInt16} {forwarded : HandlerCall} {item : SessionInfo H} {h : H}
    (shape : call.forward? = some (s, required, forwarded))
    (serves : w.manager.Serves s required item h) :
    (step A w (clock, call)).1.closed? =
      if (⟨h, forwarded, A h forwarded w.calls⟩ : Event H).ends then some s else none := by
  cases call with
  | sessionStat _ | commit _ _ | read _ _ _ | write _ _ _ | writeMeta _ _ _ => cases shape; rfl
  | close _ =>
    cases shape
    have answered : (blobManager A clock (.close s) w).1 = A h (.close s) w.calls :=
      congrArg Prod.fst (BlobManager.close_served serves)
    rcases Bool.eq_false_or_eq_true (A h (.close s) w.calls) with said | said
    · simp only [Record.closed?, step, answered, said, Event.ends, if_true]
    · simp only [Record.closed?, step, answered, said, Event.ends, Bool.false_eq_true, if_false]
  | _ => cases shape

theorem isolated_own (loc : SessionLocal A can) {mine : Finset SessionId} {w v : World H}
    (isolated : Isolated mine w v) (clock : Clock) {call : ManagerCall H} {s : SessionId}
    {required : UInt16} {forwarded : HandlerCall}
    (shape : call.forward? = some (s, required, forwarded)) (own : s ∈ mine) :
    (step A w (clock, call)).1 = (step A v (clock, call)).1 ∧
      Isolated (left mine (step A w (clock, call)).1) (step A w (clock, call)).2
        (step A v (clock, call)).2 := by
  obtain ⟨item, h, known, owner, also, same⟩ := isolated.view s own
  by_cases unset : item.flags &&& required = 0
  · obtain ⟨refusal, run⟩ := session_refused A shape
    have refused : ∀ u : World H, u.manager.sessions.lookup s = some item →
        step A u (clock, call) = (⟨clock, call, refusal, []⟩, u) := by
      intro u here
      have refuses : u.manager.Refuses s required := by
        intro other found
        rw [here] at found
        cases found
        exact unset
      simp [step, run clock u refuses]
    rw [refused w known, refused v also]
    exact ⟨rfl, isolated.fewer (Finset.filter_subset _ _)⟩
  · have serves : ∀ u : World H, u.manager.sessions.lookup s = some item →
        u.manager.Serves s required item h := fun u here => ⟨here, owner, unset⟩
    obtain ⟨named, _⟩ := forward_session shape
    obtain ⟨reply, run⟩ := session_served A shape
    have said : A h forwarded v.calls = A h forwarded w.calls :=
      loc.session h forwarded s v.calls w.calls named same.symm
    have closed := served_closed (A := A) clock shape (serves w known)
    have next := isolated.sound.step (A := A) (clock, call)
    generalize e_def : (⟨h, forwarded, A h forwarded w.calls⟩ : Event H) = e at closed
    have stepped : ∀ u : World H, u.manager.sessions.lookup s = some item →
        A h forwarded u.calls = A h forwarded w.calls →
        step A u (clock, call) = (⟨clock, call, reply (A h forwarded w.calls), [e]⟩,
          ⟨u.manager.settled clock.first s item e, u.calls ++ [e]⟩) := by
      intro u here alike
      subst e_def
      simp [step, run clock u item h (serves u here), alike]
    rw [stepped w known rfl] at closed next ⊢
    rw [stepped v also said]
    refine ⟨rfl, next, fun t ht => ?_⟩
    obtain ⟨inside, remains⟩ := Finset.mem_filter.mp ht
    rw [closed] at remains
    simp only [BlobManager.settled_lookup]
    by_cases hit : t = s
    · subst hit
      have open_still : e.ends = false := by
        cases ended : e.ends with
        | false => rfl
        | true => rw [ended] at remains; exact absurd rfl remains
      refine ⟨{ item with lastActionTime := clock.first }, h, by simp [open_still], owner,
        by simp [open_still], ?_⟩
      rw [callsOn_append, callsOn_append, same]
    · obtain ⟨other, g, there, held, too, alike⟩ := isolated.view t inside
      have unrelated : ∀ d ∈ [e], d.handler = g → d.call.session? ≠ some t := by
        intro d hd _ names
        rw [List.mem_singleton.mp hd, ← e_def, named] at names
        exact hit (Option.some.inj names).symm
      refine ⟨other, g, by rw [if_neg hit, there], held, by rw [if_neg hit, too], ?_⟩
      rw [callsOn_unrelated unrelated, callsOn_unrelated unrelated, alike]

theorem isolated_session {mine : Finset SessionId} {w v : World H} (isolated : Isolated mine w v)
    (clock : Clock) {call : ManagerCall H} {s : SessionId} {required : UInt16}
    {forwarded : HandlerCall} (shape : call.forward? = some (s, required, forwarded))
    (foreign : s ∉ mine) : Isolated mine (step A w (clock, call)).2 v := by
  have sound := isolated.sound.step (A := A) (clock, call)
  have different : ∀ t ∈ mine, t ≠ s := fun t ht same => foreign (same ▸ ht)
  rcases session_step (A := A) isolated.sound clock shape with ⟨item, h, reply, _, stepped⟩ |
    ⟨refusal, _, stepped⟩
  · rw [stepped] at sound ⊢
    refine isolated.foreign sound rfl ?_ ?_
    · intro t ht
      rw [BlobManager.settled_lookup, if_neg (different t ht)]
    · intro t ht _ _ _ _ e he _ names
      rw [List.mem_singleton.mp he, (forward_session shape).1] at names
      exact different t ht (Option.some.inj names).symm
  · rw [stepped]
    exact isolated

omit [DecidableEq H] in
theorem Routed.unrelated {path : Path} {calls probes : List (Event H)} {hs : List H}
    {found : Option H} (routed : Routed A path calls hs probes found) (s : SessionId) :
    ∀ e ∈ probes, e.call.session? ≠ some s := by
  intro e he names
  rw [routed.silent e he] at names
  cases names

/-- An open by a handler that serves no session of the first client: it expires sessions of
that handler only, and takes an id that is free. -/
theorem isolated_open {mine : Finset SessionId} {w v u : World H} (isolated : Isolated mine w v)
    {clock : Clock} {flags : UInt16} {path : Path} {session : Bool} {answer : BlobManager.Opened}
    (outcome : BlobManager.OpenOutcome A w clock flags path session answer u) (sound : Sound u)
    (elsewhere : ∀ calls probes g, Routed A path calls w.manager.handlers probes (some g) →
      ∀ s ∈ mine, ∀ item, w.manager.sessions.lookup s = some item → item.handler ≠ some g) :
    Isolated mine u v := by
  have spent := BlobManager.getSession_sessions session w.manager
  cases outcome with
  | noHandler routed =>
    exact isolated.foreign sound rfl (fun _ _ => rfl) fun s _ _ _ _ _ e he _ => routed.unrelated s e he
  | noSession routed exhausted =>
    exact isolated.foreign sound rfl (fun s _ => by rw [spent])
      fun s _ _ _ _ _ e he _ => routed.unrelated s e he
  | noFlags routed issued unset =>
    exact isolated.foreign sound rfl (fun s _ => by rw [spent])
      fun s _ _ _ _ _ e he _ => routed.unrelated s e he
  | @tried probes g id answered accepted routed issued set once exact =>
    have away := elsewhere w.calls probes g routed
    have free : w.manager.sessions.lookup id = none := BlobManager.getSession_free issued
    refine isolated.foreign sound (by rw [List.append_assoc, List.append_assoc]) ?_ ?_
    · intro s hs
      obtain ⟨item, h, known, owner, _⟩ := isolated.view s hs
      have distinct : s ≠ id := by
        rintro rfl
        rw [free] at known
        cases known
      have unexpired : (s, true) ∉ answered := by
        intro expired
        obtain ⟨held, _⟩ := (exact s).mp (List.mem_map_of_mem expired)
        obtain ⟨other, found, held⟩ := (isolated.sound.tables.held g s).mp held
        exact away s hs other found held
      rw [BlobManager.offered_lookup issued, if_neg distinct, if_neg unexpired]
    · intro s hs item h known owner e he same
      have foreign : h ≠ g := fun hg => away s hs item known (hg ▸ owner)
      rcases List.mem_append.mp he with he | he
      · exact routed.unrelated s e he
      · rcases List.mem_append.mp he with he | he
        · obtain ⟨a, _, rfl⟩ := List.mem_map.mp he
          exact absurd same.symm foreign
        · rw [List.mem_singleton.mp he] at same
          exact absurd same.symm foreign

theorem isolated_other (loc : SessionLocal A can) {mine : Finset SessionId} {w v : World H}
    (isolated : Isolated mine w v) (clock : Clock) {call : ManagerCall H}
    (permitted : Permitted can mine w false (clock, call)) :
    Isolated mine (step A w (clock, call)).2 v := by
  obtain ⟨disjoint, elsewhere⟩ := permitted
  have sound := isolated.sound.step (A := A) (clock, call)
  rcases call.kinds with ⟨s, required, forwarded, shape⟩ | ⟨flags, path, session, rfl⟩ |
    ⟨free, unopened⟩
  · exact isolated_session isolated clock shape (disjoint s (by simp [ManagerCall.session?, shape]))
  · refine isolated_open isolated
      (BlobManager.open_outcome A clock flags path session w isolated.sound.tables.present) sound ?_
    intro calls probes g routed s hs item known owner
    refine elsewhere path rfl g (routed.fixed fun h calls => loc.routing h path calls).symm s hs ?_
    rw [known]
    exact owner
  · obtain ⟨same, events, more, silent⟩ := quiet_request A clock free unopened w
    refine isolated.foreign sound more ?_ ?_
    · intro s _
      have kept : (step A w (clock, call)).2.manager.sessions = w.manager.sessions := same.sessions
      rw [kept]
    · intro s _ _ _ _ _ e he _ names
      rw [silent e he] at names
      cases names

theorem clients_unwind (loc : SessionLocal A can) :
    Machine.Unwinding (step A) left (Permitted can) Isolated where
  own := by
    rintro mine w v ⟨clock, call⟩ isolated ⟨s, own, names⟩
    obtain ⟨⟨t, required, forwarded⟩, shape, same⟩ := Option.map_eq_some_iff.mp names
    cases same
    exact isolated_own loc isolated clock shape own
  other := by
    rintro mine w v ⟨clock, call⟩ isolated permitted
    exact isolated_other loc isolated clock permitted

/-- Two clients that keep to their own sessions do not interfere, in any interleaving: the
replies to the first client, its handler calls and the entries it has left are those of the
run without the second. The discipline is about the interleaved run. -/
theorem clients_do_not_interfere (A : Answers H) (can : H → Path → Bool) (loc : SessionLocal A can)
    (sessionTimeout : Time) (next : UInt16) (past : List (Clock × ManagerCall H))
    (mine : Finset SessionId)
    (opened : ∀ s ∈ mine,
      ((history A sessionTimeout next past).2.manager.sessions.lookup s).isSome = true)
    (requests : List (Bool × Clock × ManagerCall H))
    (disciplined : Machine.Disciplined (step A) left (Permitted can) mine
      (history A sessionTimeout next past).2 requests) :
    let w := (history A sessionTimeout next past).2
    let both := Machine.run (step A) w (requests.map (·.2))
    let alone := Machine.run (step A) w (Machine.ownInputs requests)
    Machine.ownAnswers (step A) w requests = alone.1 ∧
    ∀ s ∈ mine, (∀ r ∈ alone.1, r.closed? ≠ some s) →
      both.2.manager.sessions.lookup s = alone.2.manager.sessions.lookup s := by
  intro w both alone
  have sound : Sound w := history_sound A sessionTimeout next past
  have start : Isolated mine w w := by
    refine ⟨sound, fun s hs => ?_⟩
    obtain ⟨item, known⟩ := Option.isSome_iff_exists.mp (opened s hs)
    obtain ⟨h, _, owner⟩ := sound.tables.registered s item known
    exact ⟨item, h, known, owner, known, rfl⟩
  obtain ⟨answers, final⟩ :=
    Machine.unwinding_run (step A) left (Permitted can) (clients_unwind loc) start requests disciplined
  refine ⟨answers, fun s hs unclosed => ?_⟩
  obtain ⟨item, _, here, _, there, _⟩ := final.view s (mem_left_all.mpr ⟨hs, answers ▸ unclosed⟩)
  exact here.trans there.symm

/-- Two handlers, each for one path of its own. A read tells how many calls the session has
seen, everything else is accepted. -/
def twoHandlers : Answers Bool
  | h, .canHandleBlob path, _ => path == [if h then 1 else 0]
  | h, .read s _ _, calls => [UInt8.ofNat (callsOn h s calls).length]
  | _, .getBlobIds, _ => []
  | _, .stat _, _ | _, .sessionStat _, _ => none
  | _, .deleteBlob _, _ | _, .open .., _ | _, .write .., _ | _, .writeMeta .., _
  | _, .commit .., _ | _, .close _, _ | _, .expire _, _ => true

theorem twoHandlers_local : SessionLocal twoHandlers fun h path => path == [if h then 1 else 0] where
  routing := fun _ _ _ => rfl
  session := by
    intro h call s calls others named same
    cases call with
    | read t offset size =>
      cases named
      simp only [twoHandlers, same]
    | _ => rfl

theorem clients_do_not_interfere_two :
    let requests : List (Bool × Clock × ManagerCall Bool) :=
      [(false, ⟨2, 2⟩, .open 3 [0] true), (true, ⟨3, 3⟩, .read 0 0 1),
        (false, ⟨90, 90⟩, .open 3 [0] true), (true, ⟨91, 91⟩, .close 0)]
    let w := (history twoHandlers 60 0 [(⟨0, 0⟩, .registerHandler (some true)),
      (⟨0, 0⟩, .registerHandler (some false)), (⟨0, 0⟩, .open 1 [1] true)]).2
    let both := Machine.run (step twoHandlers) w (requests.map (·.2))
    let alone := Machine.run (step twoHandlers) w (Machine.ownInputs requests)
    Machine.ownAnswers (step twoHandlers) w requests = alone.1 ∧
    ∀ s ∈ ({0} : Finset SessionId), (∀ r ∈ alone.1, r.closed? ≠ some s) →
      both.2.manager.sessions.lookup s = alone.2.manager.sessions.lookup s :=
  clients_do_not_interfere twoHandlers _ twoHandlers_local 60 0 _ {0}
    (fun s hs => by rw [Finset.mem_singleton.mp hs]; decide +kernel) _ (by decide +kernel)

end PhosphorBlobs
