import PhosphorBlobs.Example.Delivery
import PhosphorBlobs.Service.Hosts

/-! Hosts that share the example handler. It keeps its sessions apart and expires none, so
hosts need not keep away from each other's path as they do with handlers in general: it is
enough that they do not name each other's sessions. -/
namespace PhosphorBlobs

open ExampleBlobHandler

variable {H F : Type} [DecidableEq H]

section Sharing

variable {A : Answers H} {h : H} {stack : Nat → Buffer} {w v : World H} {s : SessionId}
  {b : Binding H} {mine : Finset SessionId}

theorem after_keeps {past : List (Event H)} {e : Event H}
    (spared : e.call.session? = some s → e.call = .expire s) :
    (after h stack (past ++ [e])).sessions.lookup s = (after h stack past).sessions.lookup s := by
  obtain ⟨g, call, answer⟩ := e
  by_cases own : g = h
  · subst own
    rw [after_own]
    by_cases named : call.session? = some s
    · have expiry : call = .expire s := spared named
      subst expiry
      exact congrArg (fun x => x.2.sessions.lookup s) expire_run
    · exact method_frame _ _ named
  · rw [after_foreign own]

theorem after_keeps_all {past more : List (Event H)}
    (spared : ∀ e ∈ more, e.call.session? = some s → e.call = .expire s) :
    (after h stack (past ++ more)).sessions.lookup s = (after h stack past).sessions.lookup s := by
  induction more using List.reverseRecOn with
  | nil => rw [List.append_nil]
  | append_singleton front e ih =>
    rw [← List.append_assoc, after_keeps (spared e (by simp))]
    exact ih fun f inside => spared f (List.mem_append_left _ inside)

/-- The first host names only ids it has left, the second none of these. -/
def Apart (mine : Finset SessionId) (_ : World H) (own : Bool) (request : Clock × ManagerCall H) :
    Prop :=
  if own then ∃ s ∈ mine, request.2.session? = some s else ∀ s ∈ request.2.session?, s ∉ mine

/-- With and without the second host, what the first one has left is served by the example
handler, which has the same in it. -/
def Alike (A : Answers H) (h : H) (stack : Nat → Buffer) (mine : Finset SessionId) (w v : World H) :
    Prop :=
  ∀ s ∈ mine, ∃ b, Serving A h s b w ∧ Serving A h s b v ∧
    (after h stack w.calls).sessions.lookup s = (after h stack v.calls).sessions.lookup s

/-- A session that is left after a request was not closed by it, since no close is refused. -/
theorem left_unclosed (deployed : Deployed A h stack) (serving : Serving A h s b w) {clock : Clock}
    {call : ManagerCall H} (remains : s ∈ left mine (step A w (clock, call)).1) : call ≠ .close s := by
  rintro rfl
  obtain ⟨⟨sessionTimeout, next, requests, rfl⟩, bound, own⟩ := serving
  obtain ⟨accepted, _⟩ := example_close deployed bound own clock
  obtain ⟨_, unclosed⟩ := Finset.mem_filter.mp remains
  rw [closed_close, if_pos accepted] at unclosed
  exact unclosed rfl

theorem alike_other (deployed : Deployed A h stack) (alike : Alike A h stack mine w v) (clock : Clock)
    {call : ManagerCall H} (apart : ∀ s ∈ call.session?, s ∉ mine) :
    Alike A h stack mine (step A w (clock, call)).2 v := by
  intro s inside
  obtain ⟨b, here, there, same⟩ := alike s inside
  have unnamed : call.session? ≠ some s := fun names => apart s names inside
  have unclosed : call ≠ .close s := by
    rintro rfl
    exact unnamed rfl
  refine ⟨b, here.step deployed clock unclosed, there, ?_⟩
  rw [step_calls here.sound, ← same]
  apply after_keeps_all
  intro e made names
  rcases step_mentions here.sound here.bound clock call e made names with expiry | ⟨required, shape⟩
  · exact expiry
  · refine absurd ?_ unnamed
    rw [ManagerCall.session?, shape]
    rfl

theorem after_local {past others more : List (Event H)}
    (same : (after h stack past).sessions.lookup s = (after h stack others).sessions.lookup s)
    (unopened : ∀ e ∈ more, ∀ flags path, e.call ≠ .open s flags path) :
    (after h stack (past ++ more)).sessions.lookup s = (after h stack (others ++ more)).sessions.lookup s := by
  induction more using List.reverseRecOn with
  | nil => rwa [List.append_nil, List.append_nil]
  | append_singleton front e ih =>
    have before := ih fun f inside => unopened f (List.mem_append_left _ inside)
    have last := unopened e (by simp)
    rw [← List.append_assoc, ← List.append_assoc]
    obtain ⟨g, call, answer⟩ := e
    by_cases own : g = h
    · subst own
      rw [after_own, after_own]
      by_cases named : call.session? = some s
      · exact (method_local _ _ named last before).2
      · rw [method_frame _ _ named, method_frame _ _ named]
        exact before
    · rw [after_foreign own, after_foreign own]
      exact before

theorem answers_local (deployed : Deployed A h stack) {past others : List (Event H)}
    (same : (after h stack past).sessions.lookup s = (after h stack others).sessions.lookup s)
    {call : HandlerCall} (named : call.session? = some s)
    (unopened : ∀ flags path, call ≠ .open s flags path) : A h call past = A h call others := by
  have alike := (method_local (stack past.length) (stack others.length) named unopened same).1
  rw [deployed call past, deployed call others] at alike
  exact Except.ok.inj alike

theorem record_local (deployed : Deployed A h stack) (here : Serving A h s b w)
    (there : Serving A h s b v)
    (same : (after h stack w.calls).sessions.lookup s = (after h stack v.calls).sessions.lookup s)
    (clock : Clock) {call : ManagerCall H} {required : UInt16} {forwarded : HandlerCall}
    (shape : call.forward? = some (s, required, forwarded)) :
    (step A w (clock, call)).1 = (step A v (clock, call)).1 := by
  by_cases denied : b.flags &&& required = 0
  · obtain ⟨refusal, run⟩ := session_refused A shape
    have refused : ∀ u : World H, u.manager.bound s = some b →
        (step A u (clock, call)).1 = ⟨clock, call, refusal, []⟩ := by
      intro u bound
      obtain ⟨item, known, _, flags, _⟩ := BlobManager.bound_known bound
      have refuses : u.manager.Refuses s required := by
        intro other found
        cases known.symm.trans found
        rw [flags]
        exact denied
      simp [PhosphorBlobs.step, run clock u refuses]
    rw [refused w here.bound, refused v there.bound]
  · obtain ⟨reply, run⟩ := session_served A shape
    obtain ⟨named, unopened⟩ := forward_session shape
    have served : ∀ u : World H, Serving A h s b u → A h forwarded u.calls = A h forwarded w.calls →
        (step A u (clock, call)).1 = ⟨clock, call, reply (A h forwarded w.calls),
          [⟨h, forwarded, A h forwarded w.calls⟩]⟩ := by
      intro u serving said
      obtain ⟨item, serves⟩ := serving.serves deployed required denied
      simp [PhosphorBlobs.step, run clock u item h serves, said]
    rw [served w here rfl, served v there (answers_local deployed same.symm named unopened)]

theorem alike_own (deployed : Deployed A h stack) (alike : Alike A h stack mine w v) (clock : Clock)
    {call : ManagerCall H} {required : UInt16} {forwarded : HandlerCall}
    (shape : call.forward? = some (s, required, forwarded)) (own : s ∈ mine) :
    (step A w (clock, call)).1 = (step A v (clock, call)).1 ∧
      Alike A h stack (left mine (step A w (clock, call)).1) (step A w (clock, call)).2
        (step A v (clock, call)).2 := by
  obtain ⟨b, here, there, same⟩ := alike s own
  have records := record_local deployed here there same clock shape
  refine ⟨records, fun t remains => ?_⟩
  obtain ⟨c, near, far, alike⟩ := alike t (Finset.mem_filter.mp remains).1
  have unclosed := left_unclosed deployed near remains
  refine ⟨c, near.step deployed clock unclosed, far.step deployed clock unclosed, ?_⟩
  rw [step_calls near.sound, step_calls far.sound, ← records]
  apply after_local alike
  intro e made flags path opens
  rcases step_mentions near.sound near.bound clock call e made (by rw [opens]; rfl) with expiry | ⟨_, through⟩
  · rw [opens] at expiry
    cases expiry
  · exact (forward_session through).2 flags path opens

theorem example_unwind (deployed : Deployed A h stack) : Machine.Unwinding (step A) left Apart
    (Alike A h stack) where
  own := by
    rintro mine w v ⟨clock, call⟩ alike ⟨s, own, names⟩
    obtain ⟨⟨t, required, forwarded⟩, shape, same⟩ := Option.map_eq_some_iff.mp names
    cases same
    exact alike_own deployed alike clock shape own
  other := by
    rintro mine w v ⟨clock, call⟩ alike apart
    exact alike_other deployed alike clock apart

end Sharing

/-- Two hosts with sessions on the example handler do not interfere, in any interleaving and
whatever else the second one asks, opens and deletes of the shared path included. -/
theorem example_hosts_do_not_interfere [DecidableEq F] (libs : Path → Library F) (made : F → Made H)
    (generateCrc : List UInt8 → UInt16) (getChannelMaxTransferSize : UInt8 → Nat) {A : Answers H} {h : H}
    {stack : Nat → Buffer} (deployed : Deployed A h stack) (clock : Clock)
    (directory : Option (List Path)) (sessionTimeout : Time) (next : UInt16) (past : List HostRequest)
    (mine : Finset SessionId) (requests : List (Bool × HostRequest)) :
    let w := (daemon libs made generateCrc getChannelMaxTransferSize A clock directory sessionTimeout
      next past).2
    let talk := converse generateCrc getChannelMaxTransferSize A
    (∀ s ∈ mine, ∃ b, w.manager.bound s = some b ∧ b.handler = h) →
    Machine.Disciplined talk remaining (MayAsk generateCrc (Apart (H := H))) mine w requests →
    Machine.ownAnswers talk w requests = (Machine.run talk w (Machine.ownInputs requests)).1 := by
  intro w talk opened disciplined
  obtain ⟨asked, reached⟩ := daemon_reached libs made generateCrc getChannelMaxTransferSize A clock
    directory sessionTimeout next past
  have start : Alike A h stack mine w w := by
    intro s inside
    obtain ⟨b, bound, own⟩ := opened s inside
    have serving : Serving A h s b w := ⟨⟨sessionTimeout, next, asked, reached⟩, bound, own⟩
    exact ⟨b, serving, serving, rfl⟩
  exact (Machine.unwinding_run talk remaining _
    (hosts_unwind generateCrc getChannelMaxTransferSize (example_unwind deployed)) start requests
    disciplined).1

theorem example_hosts_do_not_interfere_two :
    let w := (daemon (fun _ => Library.providing ()) (fun _ => .result (some ())) (fun _ => 0x1234)
      (fun _ => 64) (exampleOnly fun _ => zeroes) ⟨0, 0⟩ (some [[46, 115, 111]]) 60 0 [openRequest]).2
    let requests : List (Bool × HostRequest) :=
      [(false, openRequest), (true, ⟨⟨3, 3⟩, 0, 6, [0x34, 0x12, 0, 0]⟩)]
    let talk := converse (fun _ => 0x1234) (fun _ => 64) (exampleOnly fun _ => zeroes)
    Machine.ownAnswers talk w requests = (Machine.run talk w (Machine.ownInputs requests)).1 := by
  refine example_hosts_do_not_interfere (fun _ => Library.providing ()) (fun _ => .result (some ()))
    (fun _ => 0x1234) (fun _ => 64) (exampleOnly_deployed fun _ => zeroes) ⟨0, 0⟩
    (some [[46, 115, 111]]) 60 0 [openRequest] {0} _ ?_ ⟨?_, ?_, trivial⟩
  · intro s inside
    rw [Finset.mem_singleton.mp inside]
    exact ⟨⟨(), 3, supportedPath⟩, rfl, rfl⟩
  · rintro asked ⟨request, accepts, rfl⟩
    have command := accepts.command (H := Unit)
    cases request <;> cases command
    rintro t ⟨⟩
  · intro asked passed
    refine ⟨0, Finset.mem_singleton_self 0, ?_⟩
    rw [passed.names rfl]
    rfl

end PhosphorBlobs
