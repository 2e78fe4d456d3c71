import PhosphorBlobs.Manager.Opening

/-! The three session tables. One fact, which handler holds which session on which path, is
stored three times under different keys; each primitive update keeps the copies equal. -/
namespace PhosphorBlobs

variable {H : Type} [DecidableEq H]

def onPath (path : Path) (item : SessionInfo H) : Bool := decide (item.blobId = path)

structure Tables (m : BlobManager H) : Prop where
  held : ∀ h s, s ∈ m.heldBy h ↔ ∃ item, m.sessions.lookup s = some item ∧ item.handler = some h
  counted : ∀ path, m.openCount path = Table.tally (onPath path) m.sessions
  flagged : ∀ s item, m.sessions.lookup s = some item →
    item.flags &&& (OpenFlags.read ||| OpenFlags.write) ≠ 0
  registered : ∀ s item, m.sessions.lookup s = some item → ∃ h ∈ m.handlers, item.handler = some h

namespace Tables

theorem fresh (sessionTimeout : Time) (next : UInt16) :
    Tables (BlobManager.fresh sessionTimeout next : BlobManager H) := by
  constructor
  · intro h s
    simp [BlobManager.fresh, BlobManager.heldBy]
  · intro path
    simp [BlobManager.fresh, BlobManager.openCount]
  · intro s item known
    simp [BlobManager.fresh] at known
  · intro s item known
    simp [BlobManager.fresh] at known

theorem present {m : BlobManager H} (tables : Tables m) : m.HeldPresent := by
  intro h s hs
  obtain ⟨item, known, _⟩ := (tables.held h s).mp hs
  exact ⟨item, known⟩

theorem held_iff {m : BlobManager H} (tables : Tables m) {s : SessionId} {item : SessionInfo H}
    {h : H} (known : m.sessions.lookup s = some item) (owner : item.handler = some h) (g : H) :
    s ∈ m.heldBy g ↔ g = h := by
  rw [tables.held]
  constructor
  · rintro ⟨other, also, owned⟩
    rw [known] at also
    cases also
    exact Option.some.inj (owned.symm.trans owner)
  · rintro rfl
    exact ⟨item, known, owner⟩

theorem count_pos {m : BlobManager H} (tables : Tables m) {s : SessionId} {item : SessionInfo H}
    (known : m.sessions.lookup s = some item) : 1 ≤ m.openCount item.blobId := by
  have some_session : 0 < Table.tally (onPath item.blobId) m.sessions :=
    Table.tally_pos known (by simp [onPath])
  rw [tables.counted]
  omega

theorem count_zero_iff {m : BlobManager H} (tables : Tables m) (path : Path) :
    ¬ m.openCount path > 0 ↔ ∀ s item, m.sessions.lookup s = some item → item.blobId ≠ path := by
  have none_left := Table.tally_eq_zero (P := onPath path) (t := m.sessions)
  rw [tables.counted]
  constructor
  · intro zero s item known same
    have out := none_left.mp (by omega) s item known
    simp [onPath, same] at out
  · intro other
    have zero := none_left.mpr fun s item known => by simp [onPath, other s item known]
    omega

theorem count_le {m : BlobManager H} (tables : Tables m) (path : Path) :
    0 ≤ m.openCount path ∧ m.openCount path ≤ 65536 := by
  have few := Table.tally_le (onPath path) m.sessions (fun a b => UInt16.toNat_inj.mp)
    UInt16.toNat_lt
  rw [tables.counted]
  omega

theorem same {m n : BlobManager H} (tables : Tables m) (kept : SameSessions m n) : Tables n := by
  constructor
  · intro h s
    have set : n.heldBy h = m.heldBy h := by simp only [BlobManager.heldBy, kept.openSessions]
    rw [set, kept.sessions]
    exact tables.held h s
  · intro path
    rw [kept.counts, kept.sessions]
    exact tables.counted path
  · intro s item known
    exact tables.flagged s item (kept.sessions ▸ known)
  · intro s item known
    obtain ⟨h, inside, owner⟩ := tables.registered s item (kept.sessions ▸ known)
    exact ⟨h, kept.handlers inside, owner⟩

theorem issued {m : BlobManager H} (tables : Tables m) (session : Bool) :
    Tables (BlobManager.getSession session m).2 := by
  rw [BlobManager.getSession_keeps]
  exact tables.same ⟨rfl, rfl, fun _ => rfl, List.Subset.refl _, rfl⟩

theorem touch {m : BlobManager H} (tables : Tables m) {s : SessionId} {item : SessionInfo H}
    (known : m.sessions.lookup s = some item) (now : Time) : Tables (m.touch now s item) := by
  have lookup := m.touch_lookup now s item
  constructor
  · intro h t
    have before := tables.held h t
    have set : (m.touch now s item).heldBy h = m.heldBy h := rfl
    rw [lookup, set]
    by_cases here : t = s
    · subst here
      simpa [known] using before
    · simpa [here] using before
  · intro path
    have kept : Table.tally (onPath path) (m.touch now s item).sessions =
        Table.tally (onPath path) m.sessions := Table.tally_insert_same (onPath path) known rfl
    exact (tables.counted path).trans (congrArg Nat.cast kept.symm)
  · intro t other found
    rw [lookup] at found
    split at found
    · cases found
      exact tables.flagged s item known
    · exact tables.flagged t other found
  · intro t other found
    rw [lookup] at found
    split at found
    · cases found
      exact tables.registered s item known
    · exact tables.registered t other found

end Tables

namespace BlobManager

theorem eraseSession_held {m : BlobManager H} {s : SessionId} {item : SessionInfo H}
    (known : m.sessions.lookup s = some item) (h g : H) :
    (m.eraseSession h s).heldBy g = if g = h then (m.heldBy h).erase s else m.heldBy g := by
  simp only [eraseSession, known, heldBy, Table.lookup_update]
  split <;> rfl

/-- The count of the session's path goes down by one; an entry that reaches zero is removed,
which reads as zero. -/
theorem eraseSession_count {m : BlobManager H} {s : SessionId} {item : SessionInfo H}
    (known : m.sessions.lookup s = some item) (h : H) (path : Path) :
    (m.eraseSession h s).openCount path =
      if path = item.blobId then m.openCount path - 1 else m.openCount path := by
  have lower : ∀ q, ((m.openFiles.update 0 (· - 1) item.blobId).lookup q).getD 0 =
      if q = item.blobId then m.openCount q - 1 else m.openCount q := by
    intro q
    rw [Table.lookup_update]
    split
    · rename_i same; rw [same]; rfl
    · rfl
  rw [← lower]
  simp only [eraseSession, known, openCount]
  split
  · rename_i zero
    rw [Table.lookup_erase_if]
    split
    · rename_i same; rw [same, zero]; rfl
    · rfl
  · rfl

theorem associate_held (m : BlobManager H) (now : Time) (h g : H) (s : SessionId) (flags : UInt16)
    (path : Path) : (m.associate now h s flags path).heldBy g =
      if g = h then (m.heldBy h).insert s else m.heldBy g := by
  simp only [associate, heldBy, Table.lookup_update]
  split <;> rfl

theorem associate_count (m : BlobManager H) (now : Time) (h : H) (s : SessionId) (flags : UInt16)
    (path q : Path) : (m.associate now h s flags path).openCount q =
      if q = path then m.openCount q + 1 else m.openCount q := by
  simp only [associate, openCount, Table.lookup_update]
  split
  · rename_i same; rw [same]; rfl
  · rfl

end BlobManager

namespace Tables

theorem erase {m : BlobManager H} (tables : Tables m) {s : SessionId} {item : SessionInfo H}
    {h : H} (known : m.sessions.lookup s = some item) (owner : item.handler = some h) :
    Tables (m.eraseSession h s) := by
  have lookup : ∀ t, (m.eraseSession h s).sessions.lookup t =
      if t = s then none else m.sessions.lookup t := by
    intro t
    rw [BlobManager.eraseSession_sessions, Table.lookup_erase_if]
  constructor
  · intro g t
    rw [lookup, BlobManager.eraseSession_held known]
    by_cases here : t = s
    · subst here
      have own := tables.held_iff known owner g
      by_cases hg : g = h
      · simp [hg]
      · simpa [hg] using own
    · have before := tables.held g t
      by_cases hg : g = h
      · subst hg
        simpa [here] using before
      · simpa [here, hg] using before
  · intro path
    have fewer := Table.tally_erase (onPath path) known
    have before := tables.counted path
    rw [BlobManager.eraseSession_count known, BlobManager.eraseSession_sessions]
    by_cases same : path = item.blobId
    · simp only [onPath, same, decide_true, if_true] at fewer before ⊢
      omega
    · simp only [onPath, Ne.symm same, decide_false, same, if_false, Bool.false_eq_true] at fewer before ⊢
      omega
  · intro t other found
    rw [lookup] at found
    split at found
    · cases found
    · exact tables.flagged t other found
  · intro t other found
    rw [lookup] at found
    split at found
    · cases found
    · rw [(BlobManager.eraseSession_keeps h s m).1]
      exact tables.registered t other found

theorem associate {m : BlobManager H} (tables : Tables m) {s : SessionId} {h : H} {flags : UInt16}
    (free : m.sessions.lookup s = none) (inside : h ∈ m.handlers)
    (set : flags &&& (OpenFlags.read ||| OpenFlags.write) ≠ 0) (now : Time) (path : Path) :
    Tables (m.associate now h s flags path) := by
  constructor
  · intro g t
    rw [BlobManager.associate_lookup, BlobManager.associate_held]
    have before := tables.held g t
    by_cases here : t = s
    · subst here
      by_cases hg : g = h
      · simp [hg]
      · simpa [hg, free, Ne.symm hg] using before
    · by_cases hg : g = h
      · subst hg
        simpa [here] using before
      · simpa [here, hg] using before
  · intro q
    have more := Table.tally_insert_new (onPath q) (⟨path, some h, flags, now⟩ : SessionInfo H) free
    have before := tables.counted q
    have sessions : (m.associate now h s flags path).sessions =
      m.sessions.insert s ⟨path, some h, flags, now⟩ := rfl
    rw [BlobManager.associate_count, sessions, more]
    by_cases same : q = path
    · simp only [onPath, same, decide_true, if_true] at before ⊢
      omega
    · simp only [onPath, Ne.symm same, decide_false, same, if_false, Bool.false_eq_true] at before ⊢
      omega
  · intro t other found
    rw [BlobManager.associate_lookup] at found
    split at found
    · cases found
      exact set
    · exact tables.flagged t other found
  · intro t other found
    rw [BlobManager.associate_lookup] at found
    split at found
    · cases found
      exact ⟨h, inside, rfl⟩
    · exact tables.registered t other found

end Tables

end PhosphorBlobs
