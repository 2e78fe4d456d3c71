import PhosphorBlobs.Service.Errors

/-! The enumeration protocol: a count fixes the list of identifiers, which any later requests
but another count leave alone, and every identifier can be handed back unchanged. -/
namespace PhosphorBlobs

variable {H : Type}

def Event.listed : Event H → List Path
  | ⟨_, .getBlobIds, blobs⟩ => blobs
  | _ => []

def listed (w v : World H) : List Path := (v.calls.drop w.calls.length).flatMap Event.listed

theorem collectBlobIds_lists (A : Answers H) (hs : List H) (w : World H) :
    ∃ events : List (Event H), events.map (·.handler) = hs ∧ (∀ e ∈ events, e.call = .getBlobIds) ∧
      (BlobManager.collectBlobIds A hs w).2 =
        ⟨{ w.manager with ids := w.manager.ids ++ events.flatMap Event.listed },
          w.calls ++ events⟩ := by
  induction hs generalizing w with
  | nil => exact ⟨[], rfl, nofun, by simp [BlobManager.collectBlobIds]⟩
  | cons h rest ih =>
    obtain ⟨events, handlers, asked, after⟩ := ih
      ⟨{ w.manager with ids := w.manager.ids ++ A h .getBlobIds w.calls },
        w.calls ++ [⟨h, .getBlobIds, A h .getBlobIds w.calls⟩]⟩
    refine ⟨⟨h, .getBlobIds, A h .getBlobIds w.calls⟩ :: events, by simp [handlers], ?_, ?_⟩
    · intro e he
      rcases List.mem_cons.mp he with rfl | he
      · rfl
      · exact asked e he
    · simpa [BlobManager.collectBlobIds, Event.listed, World.log] using after

theorem buildBlobList_lists (A : Answers H) (w : World H) :
    ∃ events : List (Event H), events.map (·.handler) = w.manager.handlers ∧
      (∀ e ∈ events, e.call = .getBlobIds) ∧
      BlobManager.buildBlobList A w = (UInt32.ofNat (events.flatMap Event.listed).length,
        ⟨{ w.manager with ids := events.flatMap Event.listed }, w.calls ++ events⟩) := by
  obtain ⟨events, handlers, asked, after⟩ :=
    collectBlobIds_lists A w.manager.handlers ⟨{ w.manager with ids := [] }, w.calls⟩
  refine ⟨events, handlers, asked, ?_⟩
  simp [BlobManager.buildBlobList, after]

variable [DecidableEq H] {A : Answers H} {w : World H}

theorem open_ids {v : World H} {clock : Clock} {flags : UInt16} {path : Path} {session : Bool}
    {answer : BlobManager.Opened}
    (outcome : BlobManager.OpenOutcome A w clock flags path session answer v) :
    v.manager.ids = w.manager.ids := by
  have spent : (BlobManager.getSession session w.manager).2.ids = w.manager.ids := by
    rw [BlobManager.getSession_keeps]
  cases outcome with
  | noHandler routed => rfl
  | noSession routed exhausted => exact spent
  | noFlags routed issued unset => exact spent
  | @tried probes h id answered accepted routed issued set once exact =>
    have swept := (BlobManager.sweep_keeps h answered (BlobManager.getSession session w.manager).2).2.2.1
    cases accepted with
    | true => exact swept.trans spent
    | false => exact swept.trans spent

theorem step_ids (sound : Sound w) (clock : Clock) {call : ManagerCall H}
    (uncounted : call ≠ .buildBlobList) :
    (step A w (clock, call)).2.manager.ids = w.manager.ids := by
  cases call with
  | registerHandler handler => cases handler <;> rfl
  | buildBlobList => exact absurd rfl uncounted
  | getBlobId index =>
    change (BlobManager.getBlobId index w.manager).2.ids = w.manager.ids
    unfold BlobManager.getBlobId
    split <;> rfl
  | «open» flags path session =>
    exact open_ids (BlobManager.open_outcome A clock flags path session w sound.tables.present)
  | stat path =>
    obtain ⟨probes, _, asked⟩ := getHandler_routed A path w
    change (BlobManager.stat A path w).2.manager.ids = w.manager.ids
    simp only [BlobManager.stat, bind_apply, asked]
    cases (BlobManager.getHandler A path w).1 <;> rfl
  | deleteBlob path =>
    have outcome := deleteBlob_outcome A path w
    change (BlobManager.deleteBlob A path w).2.manager.ids = w.manager.ids
    generalize (BlobManager.deleteBlob A path w).2 = v at outcome ⊢
    generalize (BlobManager.deleteBlob A path w).1 = answer at outcome
    cases outcome <;> rfl
  | sessionStat _ | commit _ _ | close _ | read _ _ _ | write _ _ _ | writeMeta _ _ _ =>
    exact (session_keeps sound clock rfl).2.2.1

theorem run_ids (sound : Sound w) {later : List (Clock × ManagerCall H)}
    (uncounted : ∀ request ∈ later, request.2 ≠ .buildBlobList) :
    (Machine.run (step A) w later).2.manager.ids = w.manager.ids := by
  induction later generalizing w with
  | nil => rfl
  | cons request rest ih =>
    have tail := ih (sound.step (A := A) request) fun r hr => uncounted r (List.mem_cons_of_mem _ hr)
    exact tail.trans (step_ids sound request.1 (uncounted request List.mem_cons_self))

/-- The blob_id field of an open, a stat or a delete that reaches any manager as this path. -/
def Names (H : Type) (generateCrc : List UInt8 → UInt16) (field : List UInt8) (path : Path) : Prop :=
  ∀ (M : ManagerAnswers H) (maxSize : Nat) (seen : List (ManagerEvent H)),
    (∀ flags, (attended generateCrc M 2 (withCrc generateCrc (le16 flags ++ field)) maxSize seen).2 =
      seen ++ [⟨.open flags path true, M (.open flags path true) seen⟩]) ∧
    (attended generateCrc M 7 (withCrc generateCrc field) maxSize seen).2 =
      seen ++ [⟨.deleteBlob path, M (.deleteBlob path) seen⟩] ∧
    (attended generateCrc M 8 (withCrc generateCrc field) maxSize seen).2 =
      seen ++ [⟨.stat path, M (.stat path) seen⟩]

omit [DecidableEq H] in
theorem terminated_names (generateCrc : List UInt8 → UInt16) {path : Path} (named : path ≠ []) :
    Names H generateCrc (path ++ [0]) path := by
  intro M maxSize seen
  have reaches : ∀ cmd command payload request, BlobOEMCommands.ofByte cmd = some command →
      Grammar command payload request →
      (attended generateCrc M cmd (withCrc generateCrc payload) maxSize seen).2 =
        seen ++ [⟨request.call H, M (request.call H) seen⟩] := by
    intro cmd command payload request known parses
    exact congrArg Prod.snd (attended_accepts (.checked known ⟨payload, rfl, parses⟩) M maxSize seen)
  exact ⟨fun flags => reaches 2 _ _ _ rfl (.open flags named),
    reaches 7 _ _ _ rfl (.delete named), reaches 8 _ _ _ rfl (.stat named)⟩

/-- Enumerate on this world answers exactly these identifiers, each under its index, and the
bytes of each reply name the identifier again. -/
def Enumerates (generateCrc : List UInt8 → UInt16) (A : Answers H) (v : World H)
    (ids : List Path) : Prop :=
  ∀ (blobIdx : UInt32) (clock : Clock) (body : List UInt8) (maxSize : Nat),
    WellFormed generateCrc .bmcBlobEnumerate body (.enumerate blobIdx) →
    let answer := (serve generateCrc A clock 1 body maxSize v).1
    (ids.length ≤ blobIdx.toNat → answer = .ok responseInvalidFieldRequest) ∧
    ∀ blobId, ids[blobIdx.toNat]? = some blobId → blobId.length + 3 ≤ maxSize →
      ∃ reply, answer = .ok (responseSuccess reply) ∧
        u16At 0 reply = generateCrc (reply.drop 2) ∧ reply.drop 2 = blobId ++ [0] ∧
        Names H generateCrc (reply.drop 2) blobId

theorem ids_enumerate (generateCrc : List UInt8 → UInt16) (A : Answers H) {v : World H}
    (named : ∀ blobId ∈ v.manager.ids, blobId ≠ []) : Enumerates generateCrc A v v.manager.ids := by
  intro blobIdx clock body maxSize formed answer
  have known : BlobOEMCommands.ofByte 1 = some .bmcBlobEnumerate := rfl
  have run := serve_accepts (.checked known formed) A clock maxSize v
  have looked : (blobManager A clock ((Request.enumerate blobIdx).call H) v).1 =
      (BlobManager.getBlobId blobIdx v.manager).1 := rfl
  rw [looked] at run
  refine ⟨fun past => ?_, fun blobId there fits => ?_⟩
  · have missing : (BlobManager.getBlobId blobIdx v.manager).1 = [] := by
      rw [BlobManager.getBlobId, if_pos past]
    rw [missing] at run
    exact congrArg Prod.fst run
  · obtain ⟨inside, same⟩ := List.getElem?_eq_some_iff.mp there
    have found : (BlobManager.getBlobId blobIdx v.manager).1 = blobId := by
      rw [BlobManager.getBlobId, if_neg (by omega)]
      simp [List.getD, there]
    have letters : blobId ≠ [] := named blobId (List.mem_of_getElem? there)
    have sent : ((Request.enumerate blobIdx).reply (H := H) blobId).sent generateCrc maxSize =
        responseSuccess (withCrc generateCrc (blobId ++ [0])) := by
      have data : (Request.enumerate blobIdx).reply (H := H) blobId = .data (blobId ++ [0]) :=
        if_neg letters
      rw [data]
      exact (sent_carries (blobId ++ [0])).1 (by simp; omega)
    rw [found, sent] at run
    have tail : (withCrc generateCrc (blobId ++ [0])).drop 2 = blobId ++ [0] :=
      List.drop_left' (length_le16 _)
    refine ⟨_, congrArg Prod.fst run, ?_, tail, ?_⟩
    · rw [tail, withCrc, u16At_le16]
    · rw [tail]
      exact terminated_names generateCrc letters

/-- The enumeration is lossless: the count is the number of identifiers that the handlers
listed, in registration order, and until the next count they are enumerated one by one. -/
theorem enumeration_lossless (generateCrc : List UInt8 → UInt16) (A : Answers H)
    (sessionTimeout : Time) (next : UInt16) (past : List (Clock × ManagerCall H)) (clock : Clock)
    (body : List UInt8) (maxSize : Nat) (reply : List UInt8)
    (later : List (Clock × ManagerCall H))
    (counted : (serve generateCrc A clock 0 body maxSize
      (history A sessionTimeout next past).2).1 = .ok (responseSuccess reply))
    (few : (listed (history A sessionTimeout next past).2 (serve generateCrc A clock 0 body maxSize
      (history A sessionTimeout next past).2).2).length < 2 ^ 32)
    (named : ∀ blobId ∈ listed (history A sessionTimeout next past).2 (serve generateCrc A clock 0
      body maxSize (history A sessionTimeout next past).2).2, blobId ≠ [])
    (uncounted : ∀ request ∈ later, request.2 ≠ .buildBlobList) :
    let w := (history A sessionTimeout next past).2
    let v := (serve generateCrc A clock 0 body maxSize w).2
    (∃ events : List (Event H), v.calls = w.calls ++ events ∧
      events.map (·.handler) = w.manager.handlers ∧ ∀ e ∈ events, e.call = .getBlobIds) ∧
    (∃ count : UInt32, reply = withCrc generateCrc (le32 count) ∧
      count.toNat = (listed w v).length) ∧
    Enumerates generateCrc A (Machine.run (step A) v later).2 (listed w v) := by
  intro w v
  have sound : Sound w := history_sound A sessionTimeout next past
  rcases serve_cases generateCrc A clock 0 body maxSize w with
    ⟨request, accepts, run⟩ | ⟨cc, _, run⟩
  · have asks : request = .getCount := by
      have command := accepts.command (H := H)
      cases request with
      | getCount => rfl
      | _ => cases command
    subst asks
    have stepped : v = (step A w (clock, .buildBlobList)).2 := congrArg Prod.snd run
    obtain ⟨events, handlers, asked, built⟩ := buildBlobList_lists A w
    have answered : (blobManager A clock (Request.getCount.call H) w) =
        BlobManager.buildBlobList A w := rfl
    rw [answered, built] at run
    have after : v = ⟨{ w.manager with ids := events.flatMap Event.listed }, w.calls ++ events⟩ :=
      congrArg Prod.snd run
    have lists : listed w v = events.flatMap Event.listed := by
      rw [after, listed, List.drop_left]
    have count : (UInt32.ofNat (events.flatMap Event.listed).length).toNat =
        (listed w v).length := by
      rw [lists, UInt32.toNat_ofNat_of_lt' (lists ▸ few)]
    have carried : Carries generateCrc maxSize _ (le32 (UInt32.ofNat
      (events.flatMap Event.listed).length)) := sent_carries _
    have result : responseSuccess reply = _ := Except.ok.inj (counted.symm.trans (congrArg Prod.fst run))
    have payload := carried.payload (congrArg Resp.cc result).symm
    have same := (congrArg Resp.payload result).trans payload
    have reachable : Sound v := stepped ▸ sound.step (A := A) (clock, .buildBlobList)
    have kept : (Machine.run (step A) v later).2.manager.ids = listed w v := by
      rw [run_ids reachable uncounted, lists, after]
    refine ⟨⟨events, by rw [after], handlers, asked⟩, ⟨_, Option.some.inj same, count⟩, ?_⟩
    rw [← kept]
    exact ids_enumerate generateCrc A (kept ▸ named)
  · have result := Except.ok.inj (counted.symm.trans (congrArg Prod.fst run))
    cases congrArg Resp.payload result

/-- Two handlers that list three identifiers between them, one of them twice. -/
def listing : Answers Bool
  | h, .getBlobIds, _ => if h then [[97], [98, 99]] else [[97]]
  | _, .stat _, _ | _, .sessionStat _, _ => none
  | _, .read .., _ => []
  | _, .canHandleBlob _, _ | _, .deleteBlob _, _ | _, .open .., _ | _, .write .., _
  | _, .writeMeta .., _ | _, .commit .., _ | _, .close _, _ | _, .expire _, _ => true

theorem enumeration_lossless_three :
    let w := (history listing 60 0
      [(⟨0, 0⟩, .registerHandler (some true)), (⟨0, 0⟩, .registerHandler (some false))]).2
    let v := (serve (fun _ => 7) listing ⟨1, 1⟩ 0 [] 64 w).2
    (∃ events : List (Event Bool), v.calls = w.calls ++ events ∧
      events.map (·.handler) = w.manager.handlers ∧ ∀ e ∈ events, e.call = .getBlobIds) ∧
    (∃ count : UInt32, [7, 0, 3, 0, 0, 0] = withCrc (fun _ => 7) (le32 count) ∧
      count.toNat = (listed w v).length) ∧
    Enumerates (fun _ => 7) listing (Machine.run (step listing) v
      [(⟨2, 2⟩, .open 1 [97] true), (⟨3, 3⟩, .registerHandler (some true)),
        (⟨4, 4⟩, .deleteBlob [97])]).2 (listed w v) :=
  enumeration_lossless (fun _ => 7) listing 60 0 _ ⟨1, 1⟩ [] 64 [7, 0, 3, 0, 0, 0] _ (by decide +kernel)
    (by decide +kernel) (by decide +kernel) (by simp)

end PhosphorBlobs
