import PhosphorBlobs.Manager.Tables
import Mathlib.Logic.Relation

/-! Every request is a sequence of acts on single sessions. What all acts preserve holds in
every reachable state, and also in the middle of a request. -/
namespace PhosphorBlobs

variable {H : Type}

structure Binding (H : Type) where
  handler : H
  flags : UInt16
  path : Path

/-- What an accepted call does to a session: open binds it, close and expire free it. Every
other call, and every refused one, does nothing to any session. -/
def lifecycle : Event H → Option (SessionId × Option (Binding H))
  | ⟨h, .open s flags path, true⟩ => some (s, some ⟨h, flags, path⟩)
  | ⟨_, .close s, true⟩ => some (s, none)
  | ⟨_, .expire s, true⟩ => some (s, none)
  | _ => none

theorem lifecycle_unrelated {e : Event H} (free : e.call.session? = none) : lifecycle e = none := by
  obtain ⟨h, call, answer⟩ := e
  cases call <;> first | rfl | cases free

theorem lifecycle_expiry (h : H) (s : SessionId) (b : Bool) :
    lifecycle (BlobManager.expiry h (s, b)) = if b then some (s, none) else none := by
  cases b <;> rfl

theorem forward_session {call : ManagerCall H} {s : SessionId} {required : UInt16}
    {forwarded : HandlerCall} (shape : call.forward? = some (s, required, forwarded)) :
    forwarded.session? = some s ∧ ∀ flags path, forwarded ≠ .open s flags path := by
  cases call <;> cases shape <;> exact ⟨rfl, fun _ _ impossible => by cases impossible⟩

variable [DecidableEq H]

inductive Act : World H → World H → Prop where
  | quiet {w v : World H} (quiet : Quiet w v) : Act w v
  | touch {w : World H} {s : SessionId} {item : SessionInfo H}
      (known : w.manager.sessions.lookup s = some item) (now : Time) :
      Act w { w with manager := w.manager.touch now s item }
  | call {w : World H} {e : Event H} (idle : lifecycle e = none) : Act w (w.log [e])
  | free {w : World H} {s : SessionId} {item : SessionInfo H} {e : Event H}
      (known : w.manager.sessions.lookup s = some item) (owner : item.handler = some e.handler)
      (ended : lifecycle e = some (s, none)) :
      Act w ⟨w.manager.eraseSession e.handler s, w.calls ++ [e]⟩
  | bind {w : World H} {s : SessionId} {h : H} {flags : UInt16}
      (unbound : w.manager.sessions.lookup s = none) (inside : h ∈ w.manager.handlers)
      (set : flags &&& (OpenFlags.read ||| OpenFlags.write) ≠ 0) (now : Time) (path : Path) :
      Act w ⟨w.manager.associate now h s flags path, w.calls ++ [⟨h, .open s flags path, true⟩]⟩

abbrev Acts : World H → World H → Prop := Relation.ReflTransGen Act

theorem Act.tables {w v : World H} (act : Act w v) (tables : Tables w.manager) :
    Tables v.manager := by
  cases act with
  | quiet quiet => exact tables.same quiet.same
  | touch known now => exact tables.touch known now
  | call idle => exact tables
  | free known owner ended => exact tables.erase known owner
  | bind unbound inside set now path => exact tables.associate unbound inside set now path

theorem Acts.tables {w v : World H} (acts : Acts w v) (tables : Tables w.manager) :
    Tables v.manager := by
  induction acts with
  | refl => exact tables
  | tail _ last ih => exact last.tables ih

theorem sweep_acts (h : H) (answered : List (SessionId × Bool)) (w : World H)
    (once : (answered.map (·.1)).Nodup)
    (owned : ∀ s ∈ answered.map (·.1), ∃ item, w.manager.sessions.lookup s = some item ∧
      item.handler = some h) :
    Acts w ⟨w.manager.sweep h answered, w.calls ++ answered.map (BlobManager.expiry h)⟩ := by
  induction answered generalizing w with
  | nil => simpa [BlobManager.sweep] using Relation.ReflTransGen.refl
  | cons a rest ih =>
    obtain ⟨s, expired⟩ := a
    obtain ⟨fresh, once⟩ := List.nodup_cons.mp once
    obtain ⟨item, known, owner⟩ := owned s List.mem_cons_self
    have first : Act w ⟨if expired then w.manager.eraseSession h s else w.manager,
        w.calls ++ [BlobManager.expiry h (s, expired)]⟩ := by
      cases expired with
      | true => exact .free known owner (lifecycle_expiry h s true)
      | false => exact .call (lifecycle_expiry h s false)
    have others := ih ⟨if expired then w.manager.eraseSession h s else w.manager,
      w.calls ++ [BlobManager.expiry h (s, expired)]⟩ once (by
        intro t ht
        obtain ⟨other, found, held⟩ := owned t (List.mem_cons_of_mem _ ht)
        refine ⟨other, ?_, held⟩
        cases expired with
        | true =>
          rw [if_pos rfl, BlobManager.eraseSession_sessions, Table.lookup_erase_if, if_neg, found]
          rintro rfl
          exact fresh ht
        | false => exact found)
    refine Relation.ReflTransGen.head first ?_
    simpa [BlobManager.sweep] using others

theorem open_acts {A : Answers H} {w v : World H} {clock : Clock} {flags : UInt16} {path : Path}
    {session : Bool} {answer : BlobManager.Opened} (tables : Tables w.manager)
    (outcome : BlobManager.OpenOutcome A w clock flags path session answer v) : Acts w v := by
  have spent := BlobManager.getSession_keeps session w.manager
  have issue : ∀ {probes : List (Event H)} {found : Option H},
      Routed A path w.calls w.manager.handlers probes found →
      Acts w ⟨(BlobManager.getSession session w.manager).2, w.calls ++ probes⟩ := by
    intro probes found routed
    rw [spent]
    exact .single (.quiet
      ⟨⟨rfl, rfl, fun _ => rfl, List.Subset.refl _, rfl⟩, probes, rfl, routed.silent⟩)
  cases outcome with
  | noHandler routed => exact .single (.quiet routed.quiet)
  | noSession routed _ => exact issue routed
  | noFlags routed _ _ => exact issue routed
  | @tried probes h id answered accepted routed issued set once exact =>
    have before := issue routed
    have swept := sweep_acts h answered
      ⟨(BlobManager.getSession session w.manager).2, w.calls ++ probes⟩ once (by
        intro s hs
        rw [spent]
        exact (tables.held h s).mp ((exact s).mp hs).1)
    have unbound : ((BlobManager.getSession session w.manager).2.sweep h answered).sessions.lookup
        id = none := by
      rw [BlobManager.sweep_lookup, spent]
      have free : w.manager.sessions.lookup id = none := BlobManager.getSession_free issued
      split
      · rfl
      · exact free
    have inside : h ∈ ((BlobManager.getSession session w.manager).2.sweep h answered).handlers := by
      rw [(BlobManager.sweep_keeps h answered _).1, spent]
      exact routed.registered
    refine (before.trans swept).tail ?_
    unfold BlobManager.offered
    cases accepted with
    | true => exact .bind unbound inside set clock.second path
    | false => exact .call rfl

theorem served_acts {w : World H} {s : SessionId} {required : UInt16} {item : SessionInfo H}
    {e : Event H} (serves : w.manager.Serves s required item e.handler)
    (named : e.call.session? = some s) (unopened : ∀ flags path, e.call ≠ .open s flags path)
    (now : Time) :
    Acts w ⟨w.manager.settled now s item e, w.calls ++ [e]⟩ := by
  have touched : Acts w { w with manager := w.manager.touch now s item } :=
    .single (.touch serves.known now)
  have known : (w.manager.touch now s item).sessions.lookup s =
      some { item with lastActionTime := now } := Finmap.lookup_insert _
  refine touched.tail ?_
  obtain ⟨h, call, answer⟩ := e
  cases call with
  | «open» t flags path => cases named; exact absurd rfl (unopened flags path)
  | close t | expire t =>
    cases named
    cases answer with
    | true => exact .free known serves.owner rfl
    | false => exact .call rfl
  | _ => exact .call rfl

theorem Tables.serves_or_refuses {m : BlobManager H} (tables : Tables m) (s : SessionId)
    (required : UInt16) :
    (∃ item h, m.Serves s required item h) ∨ m.Refuses s required := by
  cases known : m.sessions.lookup s with
  | none => exact .inr fun item found => by rw [known] at found; cases found
  | some item =>
    by_cases unset : item.flags &&& required = 0
    · exact .inr fun other found => by rw [known] at found; cases found; exact unset
    · obtain ⟨h, _, owner⟩ := tables.registered s item known
      exact .inl ⟨item, h, known, owner, unset⟩

theorem request_acts (A : Answers H) (clock : Clock) (call : ManagerCall H) {w : World H}
    (tables : Tables w.manager) : Acts w (blobManager A clock call w).2 := by
  rcases call.kinds with ⟨s, required, forwarded, shape⟩ | ⟨flags, path, session, rfl⟩ |
    ⟨free, unopened⟩
  · obtain ⟨named, unopened⟩ := forward_session shape
    rcases tables.serves_or_refuses s required with ⟨item, h, serves⟩ | refuses
    · obtain ⟨reply, run⟩ := session_served A shape
      rw [run clock w item h serves]
      exact served_acts (e := ⟨h, forwarded, A h forwarded w.calls⟩) serves named unopened clock.first
    · obtain ⟨refusal, run⟩ := session_refused A shape
      rw [run clock w refuses]
  · exact open_acts tables (BlobManager.open_outcome A clock flags path session w tables.present)
  · exact .single (.quiet (quiet_request A clock free unopened w))

end PhosphorBlobs
