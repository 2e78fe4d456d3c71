import PhosphorBlobs.Manager.Lifetime
import PhosphorBlobs.Manager.Trace
import PhosphorBlobs.Service.Daemon

/-! What hosts know. A host sees replies only; taken together, the replies to Open and Close
say which sessions there are, apart from those that their handlers have expired. -/
namespace PhosphorBlobs

variable {H F : Type} [DecidableEq H]

/-- What a reply says about a session: an Open that it was begun, a Close that it was ended. -/
def told (x : HostRequest × Except Fault Resp) : Option (SessionId × Option (UInt16 × Path)) :=
  match x.2, BlobOEMCommands.ofByte x.1.cmd with
  | .ok ⟨.success, some payload⟩, some .bmcBlobOpen =>
    some (u16At 2 payload, some (u16At 2 x.1.data, stringFromBuffer (x.1.data.drop 4)))
  | .ok ⟨.success, some _⟩, some .bmcBlobClose => some (u16At 2 x.1.data, none)
  | _, _ => none

/-- The sessions as the hosts have been told of them. -/
def hostView (transcript : List (HostRequest × Except Fault Resp)) : SessionId → Option (UInt16 × Path) :=
  Journal.replay told transcript

def announced : Event H → Option (SessionId × Option (UInt16 × Path))
  | ⟨_, .open s flags path, true⟩ => some (s, some (flags, path))
  | ⟨_, .close s, true⟩ => some (s, none)
  | _ => none

section Calls

omit [DecidableEq H]

theorem announced_unrelated {e : Event H} (free : e.call.session? = none) : announced e = none := by
  obtain ⟨h, call, answer⟩ := e
  cases call <;> first | rfl | cases free

theorem announced_expiry (h : H) (a : SessionId × Bool) :
    announced (BlobManager.expiry h a) = none := rfl

def Event.Expires (e : Event H) : Prop := ∃ h s, e = ⟨h, .expire s, true⟩

theorem announced_lifecycle (calls : List (Event H)) (s : SessionId) :
    Journal.replay announced calls s = (ledger calls s).map (fun b => (b.flags, b.path)) ∨
      ∃ h, Journal.latest lifecycle calls s = some ⟨h, .expire s, true⟩ := by
  have unseen : ∀ e : Event H, e.Expires → announced e = none := by
    rintro e ⟨h, t, rfl⟩
    rfl
  have seen : ∀ e : Event H, ¬ e.Expires →
      announced e = (lifecycle e).map fun w => (w.1, w.2.map fun b => (b.flags, b.path)) := by
    rintro ⟨h, call, answer⟩ seen
    cases call with
    | «open» t flags path | close t => cases answer <;> rfl
    | expire t =>
      cases answer with
      | true => exact absurd ⟨h, t, rfl⟩ seen
      | false => rfl
    | _ => rfl
  rcases Journal.replay_hiding unseen seen calls s with same | ⟨e, v, ⟨h, t, rfl⟩, last, write⟩
  · exact .inl same
  · cases write
    exact .inr ⟨h, last⟩

theorem announced_held {calls : List (Event H)} {s : SessionId} {b : Binding H}
    (held : ledger calls s = some b) : Journal.replay announced calls s = some (b.flags, b.path) := by
  rcases announced_lifecycle calls s with alike | ⟨h, expired⟩
  · rw [alike, held]
    rfl
  · rw [ledger, Journal.replay_eq_latest, expired] at held
    cases held

theorem announced_named {e : Event H} {x : SessionId × Option (UInt16 × Path)}
    (announces : announced e = some x) : ∃ b, lifecycle e = some (x.1, b) := by
  obtain ⟨h, call, answer⟩ := e
  cases call with
  | «open» s flags path | close s => cases answer <;> cases announces; exact ⟨_, rfl⟩
  | _ => cases announces

theorem announced_expired {calls : List (Event H)} (contract : Trace.Grown Admissible calls)
    {s : SessionId} {h : H} {flags : UInt16} {path : Path}
    (known : Journal.replay announced calls s = some (flags, path))
    (ended : Journal.latest lifecycle calls s = some ⟨h, .expire s, true⟩) :
    ∃ before after, calls = before ++ ⟨h, .expire s, true⟩ :: after ∧ StillOpen before s h flags path := by
  obtain ⟨before, after, split, quiet⟩ := Journal.latest_split ended
  refine ⟨before, after, split, ?_⟩
  obtain ⟨b, held, own, _⟩ : Holds before h s BlobManager.anyFlags :=
    Trace.grown_iff_split.mp contract before _ after split
  have unchanged : Journal.replay announced calls s = Journal.replay announced before s := by
    rw [split, Journal.replay_append]
    refine Journal.foldl_elsewhere (fun e inside x announces => ?_) _
    rcases List.mem_cons.mp inside with rfl | later
    · cases announces
    · obtain ⟨_, writes⟩ := announced_named announces
      exact quiet e later _ writes
  have same := (announced_held held).symm.trans (unchanged.symm.trans known)
  cases same
  cases own
  exact ledger_eq_some.mp held

end Calls

section Step

variable {generateCrc : List UInt8 → UInt16} {getChannelMaxTransferSize : UInt8 → Nat} {A : Answers H}
  {w : World H} {r : HostRequest}

omit [DecidableEq H] in
theorem Accepts.cmd {cmd : UInt8} {body : List UInt8} {request : Request}
    (accepts : Accepts generateCrc cmd body request) {command : BlobOEMCommands}
    (leads : (request.call H).command? = some command) :
    BlobOEMCommands.ofByte cmd = some command :=
  (accepts.command (H := H)).symm.trans leads

theorem Accepts.close_named {cmd : UInt8} {body : List UInt8} {s : SessionId}
    (accepts : Accepts generateCrc cmd body (.close s)) : u16At 2 body = s := by
  cases accepts with
  | checked known formed =>
    obtain ⟨payload, rfl, parses⟩ := formed
    cases parses with
    | close session extra => simp [withCrc, u16At_past _ 0]

theorem Accepts.open_named {cmd : UInt8} {body : List UInt8} {flags : UInt16} {path : Path}
    (accepts : Accepts generateCrc cmd body (.open flags path)) :
    u16At 2 body = flags ∧ stringFromBuffer (body.drop 4) = path := by
  cases accepts with
  | checked known formed =>
    obtain ⟨payload, rfl, parses⟩ := formed
    cases parses with
    | «open» flags named =>
      refine ⟨by simp [withCrc, u16At_past _ 0], ?_⟩
      rw [withCrc, ← List.append_assoc, List.drop_left' (by simp)]
      exact stringFromBuffer_terminated path

theorem told_refusal {cc : Cc} (failed : cc ≠ .success) (payload : Option (List UInt8)) :
    told (r, .ok ⟨cc, payload⟩) = none := by
  cases cc with
  | success => exact absurd rfl failed
  | _ => rfl

theorem told_other {command : BlobOEMCommands} (known : BlobOEMCommands.ofByte r.cmd = some command)
    (opens : command ≠ .bmcBlobOpen) (closes : command ≠ .bmcBlobClose) (reply : Except Fault Resp) :
    told (r, reply) = none := by
  simp only [told, known]
  split
  · rename_i same
    exact absurd (Option.some.inj same) opens
  · rename_i same
    exact absurd (Option.some.inj same) closes
  · rfl

omit [DecidableEq H] in
theorem told_open {flags : UInt16} {path : Path}
    (accepts : Accepts generateCrc r.cmd r.data (.open flags path)) (answer : BlobManager.Opened)
    (maxSize : Nat) :
    told (r, .ok (((Request.open flags path).reply (H := H) answer).sent generateCrc maxSize)) =
      match answer with
      | .opened s => if 4 ≤ maxSize then some (s, some (flags, path)) else none
      | .refused _ => none := by
  have known := accepts.cmd (H := H) rfl
  obtain ⟨same, text⟩ := accepts.open_named
  cases answer with
  | opened s =>
    have length : (le16 s).length + 2 = 4 := by rw [length_le16]
    by_cases fits : 4 ≤ maxSize
    · have sent : (((Request.open flags path).reply (H := H) (.opened s)).sent generateCrc maxSize) =
          responseSuccess (withCrc generateCrc (le16 s)) := if_pos (by rw [length]; exact fits)
      have there : u16At 2 (withCrc generateCrc (le16 s)) = s := by
        have alone := u16At_le16 s []
        rw [List.append_nil] at alone
        rw [withCrc, u16At_past _ 0, alone]
      simp only [sent, told, known, responseSuccess, there, same, text, if_pos fits]
    · have sent : (((Request.open flags path).reply (H := H) (.opened s)).sent generateCrc maxSize) =
          responseResponseError := if_neg (by rw [length]; exact fits)
      simp only [sent, if_neg fits]
      exact told_refusal (by decide) none
  | refused stored => exact told_refusal (by decide) none

omit [DecidableEq H] in
theorem told_close {s : SessionId} (accepts : Accepts generateCrc r.cmd r.data (.close s))
    (closed : Bool) (maxSize : Nat) :
    told (r, .ok (((Request.close s).reply (H := H) closed).sent generateCrc maxSize)) =
      if closed then some (s, none) else none := by
  have known := accepts.cmd (H := H) rfl
  have named := accepts.close_named
  cases closed with
  | true => simp only [told, known, named, Request.reply, Reply.outcome, Reply.sent, responseSuccess, if_true]
  | false => exact told_refusal (by decide) none

theorem close_announced (sound : Sound w) (clock : Clock) (s : SessionId) :
    (step A w (clock, .close s)).1.calls.filterMap announced =
      if (blobManager A clock (.close s) w).1 = true then [(s, none)] else [] := by
  rcases sound.tables.serves_or_refuses s BlobManager.anyFlags with ⟨item, h, serves⟩ | refuses
  · have run : blobManager A clock (.close s) w = _ := BlobManager.close_served serves
    have made : (step A w (clock, .close s)).1.calls = [⟨h, .close s, A h (.close s) w.calls⟩] :=
      record_calls rfl (congrArg (·.2.calls) run)
    rw [made, run]
    cases A h (.close s) w.calls <;> rfl
  · have run : blobManager A clock (.close s) w = (false, w) := BlobManager.close_refused refuses
    have made : (step A w (clock, .close s)).1.calls = [] :=
      record_calls rfl (by rw [List.append_nil]; exact congrArg (·.2.calls) run)
    rw [made, run]
    rfl

theorem open_announced (sound : Sound w) (clock : Clock) (flags : UInt16) (path : Path) :
    (step A w (clock, .open flags path true)).1.calls.filterMap announced =
      match (blobManager A clock (.open flags path true) w).1 with
      | .opened s => [(s, some (flags, path))]
      | .refused _ => [] := by
  obtain ⟨answer, calls, v, stepped, more, outcome⟩ := open_step (A := A) sound clock flags path true
  have said : (blobManager A clock (.open flags path true) w).1 = answer := by
    have records := congrArg Prod.fst stepped
    injection records
  rw [stepped, said]
  have probing : ∀ {probes : List (Event H)} {found : Option H},
      Routed A path w.calls w.manager.handlers probes found → probes.filterMap announced = [] :=
    fun routed => List.filterMap_eq_nil_iff.mpr fun e he => announced_unrelated (routed.silent e he)
  cases outcome with
  | noHandler routed =>
    rw [← List.append_cancel_left more]
    exact probing routed
  | noSession routed exhausted =>
    rw [← List.append_cancel_left more]
    exact probing routed
  | noFlags routed issued unset =>
    rw [← List.append_cancel_left more]
    exact probing routed
  | @tried probes h id answered accepted routed issued set once exact =>
    have expiring : (answered.map (BlobManager.expiry h)).filterMap announced = [] := by
      rw [List.filterMap_eq_nil_iff]
      intro e he
      obtain ⟨a, _, rfl⟩ := List.mem_map.mp he
      exact announced_expiry h a
    rw [BlobManager.tried_calls more, List.filterMap_append, List.filterMap_append, probing routed,
      expiring]
    cases accepted <;> rfl

theorem other_announced (sound : Sound w) (clock : Clock) {call : ManagerCall H}
    (unopened : ∀ flags path session, call ≠ .open flags path session)
    (unclosed : ∀ s, call ≠ .close s) :
    (step A w (clock, call)).1.calls.filterMap announced = [] := by
  rw [List.filterMap_eq_nil_iff]
  rcases call.kinds with ⟨s, required, forwarded, shape⟩ | ⟨flags, path, session, rfl⟩ | ⟨free, _⟩
  · rcases session_step (A := A) sound clock shape with ⟨item, h, reply, _, stepped⟩ |
      ⟨refusal, _, stepped⟩
    · rw [stepped]
      intro e he
      rw [List.mem_singleton.mp he]
      cases call with
      | close t => exact absurd rfl (unclosed t)
      | sessionStat _ | commit _ _ | read _ _ _ | write _ _ _ | writeMeta _ _ _ => cases shape; rfl
      | _ => cases shape
    · rw [stepped]
      exact nofun
  · exact absurd rfl (unopened flags path session)
  · intro e he
    exact announced_unrelated (quiet_record clock free unopened e he)

variable (generateCrc getChannelMaxTransferSize A)

/-- One request: its reply tells of the session its calls begin or end, and of no other. Only
of an Open on a narrow channel it may tell nothing. -/
theorem exchange_announced (sound : Sound w) (r : HostRequest) :
    ∃ calls, (exchange generateCrc getChannelMaxTransferSize A w r).2.calls = w.calls ++ calls ∧
      (calls.filterMap announced =
          (told (r, (exchange generateCrc getChannelMaxTransferSize A w r).1)).toList ∨
        getChannelMaxTransferSize r.channel < 4 ∧
          told (r, (exchange generateCrc getChannelMaxTransferSize A w r).1) = none ∧
          ∃ s v, calls.filterMap announced = [(s, some v)]) := by
  rcases exchange_cases generateCrc getChannelMaxTransferSize A w r with
    ⟨request, accepts, served⟩ | ⟨cc, _, failed, refused⟩
  · refine ⟨(step A w (r.clock, request.call H)).1.calls, ?_⟩
    rw [served]
    refine ⟨step_calls sound _, ?_⟩
    have known := accepts.command (H := H)
    cases request with
    | «open» flags path =>
      have begins := open_announced (A := A) sound r.clock flags path
      have tells := told_open (H := H) accepts (blobManager A r.clock (.open flags path true) w).1
        (getChannelMaxTransferSize r.channel)
      dsimp only [Request.call] at tells ⊢
      generalize told (r, _) = reply at tells
      rw [begins, tells]
      cases (blobManager A r.clock (.open flags path true) w).1 with
      | opened s =>
        by_cases fits : 4 ≤ getChannelMaxTransferSize r.channel
        · simp only [if_pos fits]
          exact .inl rfl
        · simp only [if_neg fits]
          exact .inr ⟨Nat.lt_of_not_le fits, trivial, s, _, rfl⟩
      | refused stored => exact .inl rfl
    | close s =>
      have tells := told_close (H := H) accepts (blobManager A r.clock (.close s) w).1
        (getChannelMaxTransferSize r.channel)
      refine .inl ((close_announced sound r.clock s).trans (Eq.trans ?_ (congrArg Option.toList tells.symm)))
      cases (blobManager A r.clock (.close s) w).1 <;> rfl
    | _ =>
      rw [told_other known.symm (by decide) (by decide)]
      exact .inl (other_announced sound r.clock (fun _ _ _ => by intro same; cases same)
        (fun _ same => by cases same))
  · refine ⟨[], ?_⟩
    rw [refused, told_refusal failed]
    exact ⟨(List.append_nil _).symm, .inl rfl⟩

variable {getChannelMaxTransferSize}

/-- An accepted close is always told: its reply has no payload. -/
theorem close_told (sound : Sound w) {calls : List (Event H)}
    (more : (exchange generateCrc getChannelMaxTransferSize A w r).2.calls = w.calls ++ calls)
    {h : H} {s : SessionId} (closed : ⟨h, .close s, true⟩ ∈ calls) :
    told (r, (exchange generateCrc getChannelMaxTransferSize A w r).1) = some (s, none) := by
  obtain ⟨same, split, tells⟩ :=
    exchange_announced generateCrc getChannelMaxTransferSize A sound r
  cases List.append_cancel_left (more.symm.trans split)
  have ends : (s, none) ∈ calls.filterMap announced := List.mem_filterMap.mpr ⟨_, closed, rfl⟩
  rcases tells with told | ⟨_, _, t, v, begins⟩
  · rw [told] at ends
    exact Option.mem_toList.mp ends
  · rw [begins, List.mem_singleton] at ends
    cases ends

theorem announced_open (sound : Sound w) (contract : Trace.Grown Admissible w.calls) {s : SessionId}
    {flags : UInt16} {path : Path} (known : Journal.replay announced w.calls s = some (flags, path)) :
    (∃ h, w.manager.bound s = some ⟨h, flags, path⟩) ∨
      ∃ h, Journal.latest lifecycle w.calls s = some ⟨h, .expire s, true⟩ ∧
        ∃ before after, w.calls = before ++ ⟨h, .expire s, true⟩ :: after ∧
          StillOpen before s h flags path := by
  rcases announced_lifecycle w.calls s with alike | ⟨h, ended⟩
  · rw [alike] at known
    obtain ⟨b, held, told⟩ := Option.map_eq_some_iff.mp known
    cases told
    exact .inl ⟨b.handler, (sound.faithful s).trans held⟩
  · exact .inr ⟨h, ended, announced_expired contract known ended⟩

theorem told_begun {s : SessionId} {v : UInt16 × Path}
    (begun : told (r, (exchange generateCrc getChannelMaxTransferSize A w r).1) = some (s, some v)) :
    (exchange generateCrc getChannelMaxTransferSize A w r).2 =
        (step A w (r.clock, .open v.1 v.2 true)).2 ∧
      (blobManager A r.clock (.open v.1 v.2 true) w).1 = .opened s := by
  rcases exchange_cases generateCrc getChannelMaxTransferSize A w r with
    ⟨request, accepts, served⟩ | ⟨cc, _, failed, refused⟩
  · rw [served] at begun ⊢
    have known := accepts.command (H := H)
    cases request with
    | «open» flags path =>
      have tells := begun.symm.trans (told_open (H := H) accepts
        (blobManager A r.clock (.open flags path true) w).1 (getChannelMaxTransferSize r.channel))
      cases answer : (blobManager A r.clock (.open flags path true) w).1 with
      | opened t =>
        simp only [answer] at tells
        split at tells <;> cases tells
        exact ⟨rfl, answer⟩
      | refused stored =>
        rw [answer] at tells
        cases tells
    | close t =>
      have tells := told_close (H := H) accepts (blobManager A r.clock (.close t) w).1
        (getChannelMaxTransferSize r.channel)
      have both := begun.symm.trans tells
      cases answer : (blobManager A r.clock (.close t) w).1 <;> rw [answer] at both <;> cases both
    | _ =>
      rw [told_other known.symm (by decide) (by decide)] at begun
      cases begun
  · rw [refused, told_refusal failed] at begun
    cases begun

variable (getChannelMaxTransferSize)

/-- In some request the handler of the session has expired it, which the reply does not tell. -/
def ExpiredIn (w : World H) (requests : List HostRequest) (s : SessionId) (b : Binding H) : Prop :=
  ∃ front e back, requests = front ++ e :: back ∧
    let v := (Machine.run (exchange generateCrc getChannelMaxTransferSize A) w front).2
    let done := exchange generateCrc getChannelMaxTransferSize A v e
    v.manager.bound s = some b ∧ (∀ x, told (e, done.1) = some x → x.1 ≠ s) ∧
      ∃ calls, done.2.calls = v.calls ++ calls ∧ ⟨b.handler, .expire s, true⟩ ∈ calls

def Taken (w : World H) (requests : List HostRequest) (s : SessionId) (b : Binding H) : Prop :=
  let run := Machine.run (exchange generateCrc getChannelMaxTransferSize A)
  ∃ past r later, requests = past ++ r :: later ∧
    told (r, (exchange generateCrc getChannelMaxTransferSize A (run w past).2 r).1) =
      some (s, some (b.flags, b.path)) ∧
    (run w (past ++ [r])).2.manager.bound s = some b ∧
    ((run w requests).2.manager.bound s = some b ∨
      ExpiredIn generateCrc getChannelMaxTransferSize A (run w (past ++ [r])).2 later s b)

variable {generateCrc getChannelMaxTransferSize A}

theorem exchange_bound (sound : Sound w) {s : SessionId} {b : Binding H}
    (bound : w.manager.bound s = some b) (r : HostRequest)
    (untold : ∀ x, told (r, (exchange generateCrc getChannelMaxTransferSize A w r).1) = some x → x.1 ≠ s) :
    (exchange generateCrc getChannelMaxTransferSize A w r).2.manager.bound s = some b ∨
      ∃ calls, (exchange generateCrc getChannelMaxTransferSize A w r).2.calls = w.calls ++ calls ∧
        ⟨b.handler, .expire s, true⟩ ∈ calls := by
  rcases exchange_cases generateCrc getChannelMaxTransferSize A w r with
    ⟨request, accepts, served⟩ | ⟨cc, _, failed, refused⟩
  · rw [served] at untold ⊢
    rcases binding_step (A := A) sound (r.clock, request.call H) bound with kept | ⟨_, closed | expired⟩
    · exact .inl kept
    · have names : request.call H = .close s := closed_names closed
      obtain rfl : request = .close s := Request.call_injective names
      have accepted : (blobManager A r.clock (.close s) w).1 = true := by
        have ends := (closed_close r.clock s).symm.trans closed
        by_contra refused
        rw [if_neg refused] at ends
        cases ends
      have tells := told_close (H := H) accepts (blobManager A r.clock (.close s) w).1
        (getChannelMaxTransferSize r.channel)
      rw [if_pos accepted] at tells
      exact absurd rfl (untold _ tells)
    · exact .inr ⟨_, step_calls sound _, expired.agreed⟩
  · rw [refused]
    exact .inl bound

theorem Taken.concat {requests : List HostRequest} {s : SessionId} {b : Binding H} (sound : Sound w)
    (taken : Taken generateCrc getChannelMaxTransferSize A w requests s b) (e : HostRequest)
    (untold : ∀ x, told (e, (exchange generateCrc getChannelMaxTransferSize A
      (Machine.run (exchange generateCrc getChannelMaxTransferSize A) w requests).2 e).1) = some x →
        x.1 ≠ s) : Taken generateCrc getChannelMaxTransferSize A w (requests ++ [e]) s b := by
  have reached := exchange_run_sound generateCrc getChannelMaxTransferSize A sound requests
  obtain ⟨past, r, later, rfl, begun, bound, since⟩ := taken
  refine ⟨past, r, later ++ [e], by simp, begun, bound, ?_⟩
  rcases since with here | ⟨front, f, back, rfl, ended⟩
  · rw [Machine.run_concat]
    rcases exchange_bound reached here e untold with kept | expired
    · exact .inl kept
    · rw [List.append_cons, Machine.run_append] at here untold expired
      exact .inr ⟨later, e, [], rfl, here, untold, expired⟩
  · exact .inr ⟨front, f, back ++ [e], by simp, ended⟩

/-- The last word of the handlers on the session is not that they have closed it. -/
def Unclosed (calls : List (Event H)) (s : SessionId) : Prop :=
  ∃ e, Journal.latest lifecycle calls s = some e ∧ ∀ h, e ≠ ⟨h, .close s, true⟩

omit [DecidableEq H] in
theorem Unclosed.expired {calls : List (Event H)} {s : SessionId} (unclosed : Unclosed calls s)
    (unbound : ledger calls s = none) :
    ∃ h, Journal.latest lifecycle calls s = some ⟨h, .expire s, true⟩ := by
  obtain ⟨⟨h, call, answer⟩, last, other⟩ := unclosed
  obtain ⟨v, write⟩ := Journal.latest_writes last
  rw [ledger, Journal.replay_eq_latest, last, Option.bind_some, write, Option.bind_some] at unbound
  cases call with
  | «open» t flags path => cases answer <;> cases write; cases unbound
  | close t => cases answer <;> cases write; exact absurd rfl (other h)
  | expire t => cases answer <;> cases write; exact ⟨h, last⟩
  | _ => cases write

theorem exchange_unclosed (sound : Sound w) {s : SessionId} (unclosed : Unclosed w.calls s)
    (r : HostRequest)
    (untold : ∀ x, told (r, (exchange generateCrc getChannelMaxTransferSize A w r).1) = some x →
      x.1 ≠ s) : Unclosed (exchange generateCrc getChannelMaxTransferSize A w r).2.calls s := by
  obtain ⟨calls, more, _⟩ :=
    exchange_announced generateCrc getChannelMaxTransferSize A sound r
  rw [more, Unclosed, Journal.latest_append]
  cases here : Journal.latest lifecycle calls s with
  | none => exact unclosed
  | some e =>
    refine ⟨e, rfl, ?_⟩
    rintro h rfl
    obtain ⟨before, after, split, _⟩ := Journal.latest_split here
    have closed : ⟨h, .close s, true⟩ ∈ calls := by simp [split]
    exact untold _ (close_told generateCrc A sound more closed) rfl

theorem view_taken (sound : Sound w) (requests : List HostRequest) {s : SessionId} {flags : UInt16}
    {path : Path}
    (known : hostView (requests.zip
      (Machine.run (exchange generateCrc getChannelMaxTransferSize A) w requests).1) s =
        some (flags, path)) :
    ∃ g, Taken generateCrc getChannelMaxTransferSize A w requests s ⟨g, flags, path⟩ ∧
      Unclosed (Machine.run (exchange generateCrc getChannelMaxTransferSize A) w requests).2.calls s := by
  induction requests using List.reverseRecOn with
  | nil => cases known
  | append_singleton past r ih =>
    have before := exchange_run_sound generateCrc getChannelMaxTransferSize A sound past
    rw [Machine.run_concat, List.zip_append (Machine.length_answers _ w past).symm] at known
    rw [Machine.run_concat]
    rcases Journal.replay_held known with begun | ⟨untold, earlier⟩
    · obtain ⟨reached, opened⟩ := told_begun generateCrc A begun
      obtain ⟨_, g, _, calls, _, bound, last⟩ := opened_last before opened
      rw [reached, last]
      refine ⟨g, ⟨past, r, [], rfl, begun, ?_, .inl ?_⟩, ⟨g, .open s flags path, true⟩, ?_, nofun⟩
      · rw [Machine.run_concat, reached]
        exact bound
      · rw [Machine.run_concat, reached]
        exact bound
      · rw [Journal.latest_concat]
        exact if_pos (decide_eq_true rfl)
    · obtain ⟨g, taken, unclosed⟩ := ih earlier
      exact ⟨g, taken.concat sound r untold, exchange_unclosed before unclosed r untold⟩

end Step

section Daemon

variable [DecidableEq F] (libs : Path → Library F) (made : F → Made H)
  (generateCrc : List UInt8 → UInt16) (getChannelMaxTransferSize : UInt8 → Nat) (A : Answers H)
  (clock : Clock) (directory : Option (List Path)) (sessionTimeout : Time) (next : UInt16)
  (requests : List HostRequest)

theorem daemon_tells (roomy : ∀ r ∈ requests, 4 ≤ getChannelMaxTransferSize r.channel) :
    let run := daemon libs made generateCrc getChannelMaxTransferSize A clock directory sessionTimeout
      next requests
    Sound run.2 ∧ (requests.zip run.1).filterMap told = run.2.calls.filterMap announced ∧
      hostView (requests.zip run.1) = Journal.replay announced run.2.calls := by
  intro run
  obtain ⟨fresh, idle⟩ := started_fresh libs made A clock directory sessionTimeout next
  obtain ⟨sound, tells⟩ : Sound run.2 ∧
      (requests.zip run.1).filterMap told = run.2.calls.filterMap announced :=
    Machine.run_transcript (exchange generateCrc getChannelMaxTransferSize A)
      (fun past w => Sound w ∧ past.filterMap told = w.calls.filterMap announced)
      (fun past w r wide ⟨sound, tells⟩ => by
        obtain ⟨calls, more, single | ⟨narrow, _⟩⟩ := exchange_announced generateCrc _ A sound r
        · refine ⟨exchange_sound generateCrc getChannelMaxTransferSize A sound r, ?_⟩
          rw [List.filterMap_append, tells, more, List.filterMap_append, single]
          rfl
        · omega) ⟨fresh, by rw [idle]; rfl⟩ requests roomy
  refine ⟨sound, tells, funext fun s => ?_⟩
  rw [Journal.replay_writes, ← tells, ← Journal.replay_writes]
  rfl

/-- What hosts are told is what happens. The successful Opens and Closes are, one for one and
in order, the opens and closes that handlers accepted. So every open session was announced to
a host under its flags and path, and every session announced and not closed is open, unless
its handler expired it. -/
theorem hosts_know_sessions (roomy : ∀ r ∈ requests, 4 ≤ getChannelMaxTransferSize r.channel) :
    let run := daemon libs made generateCrc getChannelMaxTransferSize A clock directory sessionTimeout
      next requests
    let view := hostView (requests.zip run.1)
    (requests.zip run.1).filterMap told = run.2.calls.filterMap announced ∧
    (∀ s b, run.2.manager.bound s = some b → view s = some (b.flags, b.path)) ∧
    ∀ s flags path, view s = some (flags, path) →
      (∃ h, run.2.manager.bound s = some ⟨h, flags, path⟩) ∨
      ∃ h, Journal.latest lifecycle run.2.calls s = some ⟨h, .expire s, true⟩ ∧
        ∃ before after, run.2.calls = before ++ ⟨h, .expire s, true⟩ :: after ∧
          StillOpen before s h flags path := by
  intro run view
  obtain ⟨sound, tells, same⟩ := daemon_tells libs made generateCrc getChannelMaxTransferSize A clock
    directory sessionTimeout next requests roomy
  have seen : view = Journal.replay announced run.2.calls := same
  have contract : Trace.Grown Admissible run.2.calls := by
    obtain ⟨asked, reached⟩ := daemon_reached libs made generateCrc getChannelMaxTransferSize A clock
      directory sessionTimeout next requests
    have calls : run.2 = _ := reached
    rw [calls]
    exact history_contracted A sessionTimeout next asked
  rw [seen]
  exact ⟨tells, fun s b bound => announced_held ((sound.faithful s).symm.trans bound),
    fun s flags path => announced_open sound contract⟩

theorem hosts_know_sessions_open :
    let run := daemon (fun _ => Library.providing ()) (fun _ => .result (some ())) (fun _ => 0x1234)
      (fun _ => 64) willing ⟨0, 0⟩ (some [[46, 115, 111]]) 60 0
      [⟨⟨0, 0⟩, 3, 2, [0x34, 0x12, 1, 0, 97, 0]⟩]
    let view := hostView ([(⟨⟨0, 0⟩, 3, 2, [0x34, 0x12, 1, 0, 97, 0]⟩ : HostRequest)].zip run.1)
    ([(⟨⟨0, 0⟩, 3, 2, [0x34, 0x12, 1, 0, 97, 0]⟩ : HostRequest)].zip run.1).filterMap told =
      run.2.calls.filterMap announced ∧
    (∀ s b, run.2.manager.bound s = some b → view s = some (b.flags, b.path)) ∧
    ∀ s flags path, view s = some (flags, path) →
      (∃ h, run.2.manager.bound s = some ⟨h, flags, path⟩) ∨
      ∃ h, Journal.latest lifecycle run.2.calls s = some ⟨h, .expire s, true⟩ ∧
        ∃ before after, run.2.calls = before ++ ⟨h, .expire s, true⟩ :: after ∧
          StillOpen before s h flags path :=
  hosts_know_sessions (fun _ => Library.providing ()) (fun _ => .result (some ())) (fun _ => 0x1234)
    (fun _ => 64) willing ⟨0, 0⟩ (some [[46, 115, 111]]) 60 0 _ (fun _ _ => by decide)

/-- No id is given to a host that another host takes for its own, with one exception: the
handler of the earlier session has expired it, of which nobody is told. -/
theorem ids_shared_after_expiry (o : HostRequest) (s : SessionId) (v : UInt16 × Path) :
    let run := daemon libs made generateCrc getChannelMaxTransferSize A clock directory sessionTimeout next
    told (o, (exchange generateCrc getChannelMaxTransferSize A (run requests).2 o).1) = some (s, some v) →
      hostView (requests.zip (run requests).1) s = none ∨
        ∃ b past r later, requests = past ++ r :: later ∧
          told (r, (exchange generateCrc getChannelMaxTransferSize A (run past).2 r).1) =
            some (s, some (b.flags, b.path)) ∧
          hostView (requests.zip (run requests).1) s = some (b.flags, b.path) ∧
          (run (past ++ [r])).2.manager.bound s = some b ∧
          ExpiredIn generateCrc getChannelMaxTransferSize A (run (past ++ [r])).2 later s b ∧
          ∃ h, Journal.latest lifecycle (run requests).2.calls s = some ⟨h, .expire s, true⟩ := by
  intro run begun
  obtain ⟨fresh, _⟩ := started_fresh libs made A clock directory sessionTimeout next
  have sound : Sound (run requests).2 :=
    exchange_run_sound generateCrc getChannelMaxTransferSize A fresh requests
  obtain ⟨_, opened⟩ := told_begun generateCrc A begun
  obtain ⟨free, _⟩ := opened_last sound opened
  have unbound : (run requests).2.manager.bound s = none := by
    rw [BlobManager.bound, free]
    rfl
  cases known : hostView (requests.zip (run requests).1) s with
  | none => exact .inl rfl
  | some v =>
    obtain ⟨g, ⟨past, r, later, split, tells, bound, open_now | expired⟩, unclosed⟩ :=
      view_taken fresh requests known
    · cases unbound.symm.trans open_now
    · refine .inr ⟨⟨g, v.1, v.2⟩, past, r, later, split, tells, rfl, bound, expired, ?_⟩
      exact unclosed.expired ((sound.faithful s).symm.trans unbound)

theorem ids_shared_after_expiry_second :
    let run := daemon (fun _ => Library.providing ()) (fun _ => .result (some ())) (fun _ => 0x1234)
      (fun _ => 64) willing ⟨0, 0⟩ (some [[46, 115, 111]]) 60 0
    let requests : List HostRequest := [⟨⟨0, 0⟩, 3, 2, [0x34, 0x12, 1, 0, 97, 0]⟩]
    hostView (requests.zip (run requests).1) 1 = none ∨
        ∃ b past r later, requests = past ++ r :: later ∧
          told (r, (exchange (fun _ => 0x1234) (fun _ => 64) willing (run past).2 r).1) =
            some (1, some (b.flags, b.path)) ∧
          hostView (requests.zip (run requests).1) 1 = some (b.flags, b.path) ∧
          (run (past ++ [r])).2.manager.bound 1 = some b ∧
          ExpiredIn (fun _ => 0x1234) (fun _ => 64) willing (run (past ++ [r])).2 later 1 b ∧
          ∃ h, Journal.latest lifecycle (run requests).2.calls 1 = some ⟨h, .expire 1, true⟩ :=
  ids_shared_after_expiry (fun _ => Library.providing ()) (fun _ => .result (some ())) (fun _ => 0x1234)
    (fun _ => 64) willing ⟨0, 0⟩ (some [[46, 115, 111]]) 60 0 _
    ⟨⟨1, 1⟩, 3, 2, [0x34, 0x12, 1, 0, 97, 0]⟩ 1 (1, [97]) rfl

end Daemon

end PhosphorBlobs
