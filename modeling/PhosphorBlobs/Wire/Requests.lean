import PhosphorBlobs.Wire.Dispatch

/-! Which bodies reach the manager. The manager is an arbitrary one here: each answer may
depend on all calls it has received, and the calls are recorded. -/
namespace PhosphorBlobs

variable {H : Type}

structure ManagerEvent (H : Type) where
  call : ManagerCall H
  answer : call.Answer

/-- Any manager: an answer to every call, given the calls it has received so far. -/
abbrev ManagerAnswers (H : Type) := (call : ManagerCall H) → List (ManagerEvent H) → call.Answer

def recorded (M : ManagerAnswers H) : ManagerInterface H (StateM (List (ManagerEvent H))) :=
  fun call seen => (M call seen, seen ++ [⟨call, M call seen⟩])

/-- One request on that manager: its result, and the calls recorded afterwards. -/
def attended (generateCrc : List UInt8 → UInt16) (M : ManagerAnswers H) (cmd : UInt8)
    (body : List UInt8) (maxSize : Nat) (seen : List (ManagerEvent H)) :
    Except Fault Resp × List (ManagerEvent H) :=
  (handleBlobCommand generateCrc cmd (recorded M) body maxSize).run seen

variable {generateCrc : List UInt8 → UInt16} {cmd : UInt8} {body : List UInt8}

theorem attended_accepts {request : Request} (accepts : Accepts generateCrc cmd body request)
    (M : ManagerAnswers H) (maxSize : Nat) (seen : List (ManagerEvent H)) :
    attended generateCrc M cmd body maxSize seen =
      (.ok ((request.reply (M (request.call H) seen)).sent generateCrc maxSize),
        seen ++ [⟨request.call H, M (request.call H) seen⟩]) := by
  rw [attended, handle_accepts accepts]
  rfl

theorem attended_refuses (refuses : ∀ request, ¬ Accepts generateCrc cmd body request) :
    ∃ cc, cc ≠ Cc.success ∧ ∀ (M : ManagerAnswers H) (maxSize : Nat) (seen : List (ManagerEvent H)),
      attended generateCrc M cmd body maxSize seen = (.ok ⟨cc, none⟩, seen) := by
  obtain ⟨cc, failed, refused⟩ :=
    handle_refuses (H := H) (m := StateM (List (ManagerEvent H))) refuses
  refine ⟨cc, failed, fun M maxSize seen => ?_⟩
  rw [attended, refused]
  rfl

theorem attended_cases (generateCrc : List UInt8 → UInt16) (M : ManagerAnswers H) (cmd : UInt8)
    (body : List UInt8) (maxSize : Nat) (seen : List (ManagerEvent H)) :
    (∃ request, Accepts generateCrc cmd body request ∧
      attended generateCrc M cmd body maxSize seen =
        (.ok ((request.reply (M (request.call H) seen)).sent generateCrc maxSize),
          seen ++ [⟨request.call H, M (request.call H) seen⟩])) ∨
    (∀ request, ¬ Accepts generateCrc cmd body request) ∧ ∃ cc, cc ≠ Cc.success ∧
      attended generateCrc M cmd body maxSize seen = (.ok ⟨cc, none⟩, seen) := by
  by_cases some : ∃ request, Accepts generateCrc cmd body request
  · obtain ⟨request, accepts⟩ := some
    exact .inl ⟨request, accepts, attended_accepts accepts M maxSize seen⟩
  · have refuses := not_exists.mp some
    obtain ⟨cc, failed, refused⟩ := attended_refuses (H := H) refuses
    exact .inr ⟨refuses, cc, failed, refused M maxSize seen⟩

theorem attended_made {M : ManagerAnswers H} {maxSize : Nat} {seen : List (ManagerEvent H)}
    {event : ManagerEvent H} (made : (attended generateCrc M cmd body maxSize seen).2 = seen ++ [event]) :
    ∃ request, Accepts generateCrc cmd body request ∧
      event = ⟨request.call H, M (request.call H) seen⟩ ∧
      (attended generateCrc M cmd body maxSize seen).1 =
        .ok ((request.reply (M (request.call H) seen)).sent generateCrc maxSize) := by
  rcases attended_cases generateCrc M cmd body maxSize seen with
    ⟨request, accepts, run⟩ | ⟨_, _, _, run⟩
  · have calls := List.append_cancel_left (made.symm.trans (congrArg Prod.snd run))
    exact ⟨request, accepts, (List.cons.inj calls).1, congrArg Prod.fst run⟩
  · have more := congrArg List.length (made.symm.trans (congrArg Prod.snd run))
    simp at more

theorem attended_total (generateCrc : List UInt8 → UInt16) (M : ManagerAnswers H) (cmd : UInt8)
    (body : List UInt8) (maxSize : Nat) (seen : List (ManagerEvent H)) :
    ∃ result, (attended generateCrc M cmd body maxSize seen).1 = .ok result := by
  rcases attended_cases generateCrc M cmd body maxSize seen with ⟨_, _, run⟩ | ⟨_, _, _, run⟩
  · exact ⟨_, congrArg Prod.fst run⟩
  · exact ⟨_, congrArg Prod.fst run⟩

def BlobOEMCommands.code : BlobOEMCommands → UInt8
  | .bmcBlobGetCount => 0
  | .bmcBlobEnumerate => 1
  | .bmcBlobOpen => 2
  | .bmcBlobRead => 3
  | .bmcBlobWrite => 4
  | .bmcBlobCommit => 5
  | .bmcBlobClose => 6
  | .bmcBlobDelete => 7
  | .bmcBlobStat => 8
  | .bmcBlobSessionStat => 9
  | .bmcBlobWriteMeta => 10

theorem ofByte_code {command : BlobOEMCommands} :
    BlobOEMCommands.ofByte cmd = some command ↔ cmd = command.code := by
  constructor
  · intro known
    unfold BlobOEMCommands.ofByte at known
    split at known
    all_goals first
      | cases known; rename_i value; exact UInt8.toNat_inj.mp value
      | cases known
  · rintro rfl
    cases command <;> rfl

def agreeable : ManagerAnswers Unit
  | .buildBlobList, _ => 0
  | .getBlobId _, _ => [97]
  | .open .., _ => .opened 1
  | .stat _, _ | .sessionStat _, _ => none
  | .read .., _ => []
  | .registerHandler _, _ | .commit .., _ | .close _, _ | .write .., _ | .deleteBlob _, _
  | .writeMeta .., _ => true

/-- No command runs on an unverified payload: a manager call needs a body of three bytes
that carries its CRC, and a body without one is refused and leaves the manager alone. -/
def VerifiedOnly (generateCrc : List UInt8 → UInt16) (M : ManagerAnswers H) (cmd : UInt8)
    (body : List UInt8) (maxSize : Nat) (seen : List (ManagerEvent H)) : Prop :=
  let done := attended generateCrc M cmd body maxSize seen
  let verified := 3 ≤ body.length ∧ u16At 0 body = generateCrc (body.drop 2)
  body ≠ [] → (done.2 ≠ seen → verified) ∧
    (¬ verified → done.2 = seen ∧ ∃ cc, cc ≠ Cc.success ∧ done.1 = .ok ⟨cc, none⟩)

theorem Accepts.verified {request : Request} (accepts : Accepts generateCrc cmd body request) :
    (3 ≤ body.length ∧ u16At 0 body = generateCrc (body.drop 2)) ∨ cmd = 0 ∧ body.length ≤ 1 := by
  cases accepts with
  | checked known formed =>
    obtain ⟨payload, rfl, parses⟩ := formed
    have some := parses.long.2
    refine .inl ⟨?_, ?_⟩
    · simp only [withCrc, List.length_append, length_le16]
      omega
    · rw [withCrc, u16At_le16, List.drop_left' (length_le16 _)]
  | bare count short => exact .inr ⟨ofByte_code.mp count, short⟩

/-- The payload check is skipped on bodies of one byte, because the threshold still counts
the command byte. Only the count has no entry in the length table, so it alone is reached. -/
theorem verified_only_iff (generateCrc : List UInt8 → UInt16) (M : ManagerAnswers H) (cmd : UInt8)
    (body : List UInt8) (maxSize : Nat) (seen : List (ManagerEvent H)) :
    VerifiedOnly generateCrc M cmd body maxSize seen ↔ ¬ (cmd = 0 ∧ body.length = 1) := by
  constructor
  · rintro verified ⟨rfl, one⟩
    have nonempty : body ≠ [] := by
      rintro rfl
      cases one
    have accepts : Accepts generateCrc 0 body .getCount := .bare rfl (by omega)
    have called := congrArg Prod.snd (attended_accepts accepts M maxSize seen)
    have length := ((verified nonempty).1 (by rw [called]; simp)).1
    omega
  · intro sealed nonempty
    have bytes := List.length_pos_of_ne_nil nonempty
    rcases attended_cases generateCrc M cmd body maxSize seen with
      ⟨request, accepts, _⟩ | ⟨_, cc, failed, reached⟩
    · rcases accepts.verified with verified | ⟨count, short⟩
      · exact ⟨fun _ => verified, fun unverified => absurd verified unverified⟩
      · exact absurd ⟨count, by omega⟩ sealed
    · have untouched := congrArg Prod.snd reached
      refine ⟨fun called => absurd untouched called, fun _ => ⟨untouched, cc, failed, ?_⟩⟩
      exact congrArg Prod.fst reached

theorem count_runs_unverified :
    ¬ ∀ (generateCrc : List UInt8 → UInt16) (M : ManagerAnswers Unit) (cmd : UInt8)
      (body : List UInt8) (maxSize : Nat), VerifiedOnly generateCrc M cmd body maxSize [] := by
  intro verified
  have run : attended (fun _ => 0xffff) agreeable 0 [0] 64 [] =
      (.ok (responseSuccess (withCrc (fun _ => 0xffff) (le32 0))), [⟨.buildBlobList, (0 : UInt32)⟩]) :=
    rfl
  have length := ((verified (fun _ => 0xffff) agreeable 0 [0] 64 (by decide)).1 (by simp [run])).1
  exact absurd length (by decide)

end PhosphorBlobs
