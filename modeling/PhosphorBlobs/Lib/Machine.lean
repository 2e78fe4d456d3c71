import Mathlib.Data.List.Induction

/-! Deterministic machines that answer every input. A run keeps the answers in order,
so a property may relate the state reached to everything that was answered before it. -/
namespace Machine

variable {σ ι ο γ : Type*}

/-- The answers of a run, oldest first, and the state it ends in. -/
def run (step : σ → ι → ο × σ) : σ → List ι → List ο × σ
  | s, [] => ([], s)
  | s, i :: rest =>
    let now := step s i
    let later := run step now.2 rest
    (now.1 :: later.1, later.2)

theorem run_append (step : σ → ι → ο × σ) (xs ys : List ι) (s : σ) :
    run step s (xs ++ ys) =
      ((run step s xs).1 ++ (run step (run step s xs).2 ys).1,
        (run step (run step s xs).2 ys).2) := by
  induction xs generalizing s with
  | nil => rfl
  | cons i rest ih => simp only [List.cons_append, run, ih]

theorem run_invariant (step : σ → ι → ο × σ) (P : σ → Prop)
    (preserved : ∀ s i, P s → P (step s i).2) {s : σ} (initial : P s) (xs : List ι) :
    P (run step s xs).2 := by
  induction xs generalizing s with
  | nil => exact initial
  | cons i rest ih => exact ih (preserved s i initial)

theorem run_history (step : σ → ι → ο × σ) (R : List ο → σ → Prop)
    (preserved : ∀ past s i, R past s → R (past ++ [(step s i).1]) (step s i).2)
    {s : σ} (initial : R [] s) (xs : List ι) : R (run step s xs).1 (run step s xs).2 := by
  have general : ∀ (xs : List ι) (past : List ο) (s : σ), R past s →
      R (past ++ (run step s xs).1) (run step s xs).2 := by
    intro xs
    induction xs with
    | nil => intro past s h; simpa [run] using h
    | cons i rest ih =>
      intro past s h
      have later := ih _ _ (preserved past s i h)
      simpa [run, List.append_assoc] using later
  simpa using general xs [] s initial

/-- The states of a run satisfy a property as long as the steps keep to a rule, and no
longer, where the rule says exactly which steps preserve it. -/
theorem run_rule_iff (step : σ → ι → ο × σ) {P : σ → Prop} {R : σ → ι → Prop} {s : σ}
    (initial : P s) (exact : ∀ past i, P (run step s past).2 →
      (P (step (run step s past).2 i).2 ↔ R (run step s past).2 i)) (xs : List ι) :
    (∀ past more, xs = past ++ more → P (run step s past).2) ↔
      ∀ past i more, xs = past ++ i :: more → R (run step s past).2 i := by
  have last : ∀ past i, (run step s (past ++ [i])).2 = (step (run step s past).2 i).2 := by
    intro past i
    rw [run_append]
    rfl
  constructor
  · intro holds past i more split
    have here := holds past (i :: more) split
    have next := holds (past ++ [i]) more (by simp [split])
    rw [last] at next
    exact (exact past i here).mp next
  · intro kept past
    induction past using List.reverseRecOn with
    | nil => exact fun _ _ => initial
    | append_singleton past i ih =>
      intro more split
      have split : xs = past ++ i :: more := by simp [split]
      rw [last]
      exact (exact past i (ih _ split)).mpr (kept past i more split)

theorem run_concat (step : σ → ι → ο × σ) (xs : List ι) (i : ι) (s : σ) :
    run step s (xs ++ [i]) =
      ((run step s xs).1 ++ [(step (run step s xs).2 i).1], (step (run step s xs).2 i).2) :=
  run_append step xs [i] s

theorem run_congr {step step' : σ → ι → ο × σ} {s : σ} {xs : List ι}
    (agree : ∀ s, ∀ i ∈ xs, step s i = step' s i) : run step s xs = run step' s xs := by
  induction xs generalizing s with
  | nil => rfl
  | cons i rest ih =>
    have now := agree s i List.mem_cons_self
    have later := ih (s := (step' s i).2) fun t j inside => agree t j (List.mem_cons_of_mem i inside)
    simp only [run, now, later]

theorem length_answers (step : σ → ι → ο × σ) (s : σ) (xs : List ι) :
    (run step s xs).1.length = xs.length := by
  induction xs generalizing s with
  | nil => rfl
  | cons i rest ih => exact congrArg (· + 1) (ih (step s i).2)

@[simp] theorem map_fst_transcript (step : σ → ι → ο × σ) (s : σ) (xs : List ι) :
    (xs.zip (run step s xs).1).map Prod.fst = xs :=
  List.map_fst_zip (Nat.le_of_eq (length_answers step s xs).symm)

theorem run_transcript (step : σ → ι → ο × σ) (R : List (ι × ο) → σ → Prop) {may : ι → Prop}
    (preserved : ∀ past s i, may i → R past s → R (past ++ [(i, (step s i).1)]) (step s i).2)
    {s : σ} (initial : R [] s) (xs : List ι) (permitted : ∀ i ∈ xs, may i) :
    R (xs.zip (run step s xs).1) (run step s xs).2 := by
  induction xs using List.reverseRecOn with
  | nil => exact initial
  | append_singleton past i ih =>
    have before := ih fun j hj => permitted j (List.mem_append_left _ hj)
    rw [run_concat, List.zip_append (length_answers step s past).symm]
    exact preserved _ _ i (permitted i (by simp)) before

theorem run_breaks (step : σ → ι → ο × σ) {P : σ → Prop} {s : σ} (initial : P s) {xs : List ι}
    (lost : ¬ P (run step s xs).2) :
    ∃ past i more, xs = past ++ i :: more ∧ P (run step s past).2 ∧
      ¬ P (step (run step s past).2 i).2 := by
  induction xs using List.reverseRecOn with
  | nil => exact absurd initial lost
  | append_singleton past i ih =>
    by_cases kept : P (run step s past).2
    · rw [run_concat] at lost
      exact ⟨past, i, [], rfl, kept, lost⟩
    · obtain ⟨front, j, more, split, here, gone⟩ := ih kept
      exact ⟨front, j, more ++ [i], by simp [split], here, gone⟩

/-- A property that one kind of step establishes and a second property guards: it holds in the
end exactly when it was established once and has been guarded since. -/
theorem run_since_iff (step : σ → ι → ο × σ) {P K : σ → Prop} {S : σ → ι → Prop} {s : σ}
    (initial : ¬ P s) (exact : ∀ past i, P (step (run step s past).2 i).2 ↔
      K (step (run step s past).2 i).2 ∧ (P (run step s past).2 ∨ S (run step s past).2 i))
    (xs : List ι) :
    P (run step s xs).2 ↔ ∃ past i more, xs = past ++ i :: more ∧ S (run step s past).2 i ∧
      ∀ front back, more = front ++ back → K (run step s (past ++ i :: front)).2 := by
  induction xs using List.reverseRecOn with
  | nil => exact iff_of_false initial (by simp)
  | append_singleton all j ih =>
    have last : (run step s (all ++ [j])).2 = (step (run step s all).2 j).2 := by rw [run_concat]
    rw [last, exact, ih]
    constructor
    · rintro ⟨guarded, ⟨past, i, more, split, established, since⟩ | established⟩
      · refine ⟨past, i, more ++ [j], by simp [split], established, fun front back parts => ?_⟩
        rcases List.eq_nil_or_concat back with rfl | ⟨rest, k, rfl⟩
        · rw [List.append_nil] at parts
          rw [← parts, ← List.cons_append, ← List.append_assoc, ← split, last]
          exact guarded
        · have longer : more ++ [j] = (front ++ rest) ++ [k] := by simpa using parts
          exact since front rest (List.append_inj' longer rfl).1
      · refine ⟨all, j, [], rfl, established, fun front back parts => ?_⟩
        rw [(List.append_eq_nil_iff.mp parts.symm).1, last]
        exact guarded
    · rintro ⟨past, i, more, split, established, since⟩
      have guarded := since more [] (List.append_nil more).symm
      rw [← split, last] at guarded
      refine ⟨guarded, ?_⟩
      rcases List.eq_nil_or_concat more with rfl | ⟨rest, k, rfl⟩
      · obtain ⟨rfl, same⟩ := List.append_inj' split rfl
        cases same
        exact .inr established
      · have whole : all ++ [j] = (past ++ i :: rest) ++ [k] := by simpa using split
        refine .inl ⟨past, i, rest, (List.append_inj' whole rfl).1, established, fun front back parts => ?_⟩
        exact since front (back ++ [k]) (by simp [parts])

theorem run_refines {τ ι' ο' : Type*} (step : σ → ι → ο × σ) (step' : τ → ι' → ο' × τ)
    {R : σ → τ → Prop} {V : ι → ο → List ι' → List ο' → Prop}
    (matched : ∀ s t i, R s t → ∃ js, V i (step s i).1 js (run step' t js).1 ∧
      R (step s i).2 (run step' t js).2) {s : σ} {t : τ} (related : R s t) (xs : List ι) :
    ∃ parts : List (List ι' × List ο'),
      List.Forall₂ (fun x part => V x.1 x.2 part.1 part.2) (xs.zip (run step s xs).1) parts ∧
      (run step' t (parts.map Prod.fst).flatten).1 = (parts.map Prod.snd).flatten ∧
      R (run step s xs).2 (run step' t (parts.map Prod.fst).flatten).2 := by
  induction xs generalizing s t with
  | nil => exact ⟨[], .nil, rfl, related⟩
  | cons i rest ih =>
    obtain ⟨js, view, next⟩ := matched s t i related
    obtain ⟨parts, views, answers, final⟩ := ih next
    refine ⟨(js, (run step' t js).1) :: parts, .cons view views, ?_, ?_⟩
    · rw [List.map_cons, List.map_cons, List.flatten_cons, List.flatten_cons, run_append, answers]
    · rw [List.map_cons, List.flatten_cons, run_append]
      exact final

theorem run_projects {τ : Type*} (step : σ → ι → ο × σ) (step' : τ → ι → ο × τ) {P : σ → Prop}
    (project : σ → τ) (preserved : ∀ s i, P s → P (step s i).2)
    (commutes : ∀ s i, P s → step' (project s) i = ((step s i).1, project (step s i).2)) {s : σ}
    (initial : P s) (xs : List ι) :
    run step' (project s) xs = ((run step s xs).1, project (run step s xs).2) := by
  induction xs generalizing s with
  | nil => rfl
  | cons i rest ih => simp only [run, commutes s i initial, ih (preserved s i initial)]

/- Two clients share one machine. An input is tagged true when it comes from the observed
client. The ghost state moves only with that client's own answers. -/
section Interleaving

variable (step : σ → ι → ο × σ) (tick : γ → ο → γ) (may : γ → σ → Bool → ι → Prop)

def ownInputs (xs : List (Bool × ι)) : List ι := (xs.filter (·.1)).map (·.2)

/-- What the observed client is answered in the interleaved run. -/
def ownAnswers : σ → List (Bool × ι) → List ο
  | _, [] => []
  | s, (own, i) :: rest =>
    let now := step s i
    if own then now.1 :: ownAnswers now.2 rest else ownAnswers now.2 rest

def Disciplined : γ → σ → List (Bool × ι) → Prop
  | _, _, [] => True
  | g, s, (own, i) :: rest =>
    may g s own i ∧ Disciplined (if own then tick g (step s i).1 else g) (step s i).2 rest

instance decidableDisciplined [∀ g s own i, Decidable (may g s own i)] :
    (g : γ) → (s : σ) → (xs : List (Bool × ι)) → Decidable (Disciplined step tick may g s xs)
  | _, _, [] => isTrue trivial
  | g, s, (own, i) :: rest =>
    have := decidableDisciplined (if own then tick g (step s i).1 else g) (step s i).2 rest
    inferInstanceAs (Decidable (may g s own i ∧
      Disciplined step tick may (if own then tick g (step s i).1 else g) (step s i).2 rest))

/-- The local conditions: own inputs agree on both sides, foreign ones are invisible. -/
structure Unwinding (R : γ → σ → σ → Prop) : Prop where
  own : ∀ g s t i, R g s t → may g s true i →
    (step s i).1 = (step t i).1 ∧ R (tick g (step s i).1) (step s i).2 (step t i).2
  other : ∀ g s t i, R g s t → may g s false i → R g (step s i).2 t

theorem unwinding_run {R : γ → σ → σ → Prop} (unwinding : Unwinding step tick may R)
    {g : γ} {s t : σ} (related : R g s t) (xs : List (Bool × ι))
    (disciplined : Disciplined step tick may g s xs) :
    ownAnswers step s xs = (run step t (ownInputs xs)).1 ∧
      R ((ownAnswers step s xs).foldl tick g) (run step s (xs.map (·.2))).2
        (run step t (ownInputs xs)).2 := by
  induction xs generalizing g s t with
  | nil => exact ⟨rfl, related⟩
  | cons x rest ih =>
    obtain ⟨own, i⟩ := x
    obtain ⟨permitted, later⟩ := disciplined
    cases own with
    | true =>
      obtain ⟨same, next⟩ := unwinding.own g s t i related permitted
      have tail := ih next later
      refine ⟨?_, by simpa [ownAnswers, run, ownInputs] using tail.2⟩
      simpa [ownAnswers, ownInputs, run, same] using tail.1
    | false =>
      have tail := ih (unwinding.other g s t i related permitted) later
      refine ⟨?_, by simpa [ownAnswers, run, ownInputs] using tail.2⟩
      simpa [ownAnswers, ownInputs, run] using tail.1

/-- A machine in front of another one, which passes inputs on or answers them by itself:
where the answers behind it agree its own do, and clients are as apart as they are behind it. -/
theorem Unwinding.front {R : γ → σ → σ → Prop} (unwinding : Unwinding step tick may R)
    {ι' ο' : Type*} {stands : ι' → ι → Prop} {front : σ → ι' → ο' × σ} {tick' : γ → ο' → γ}
    (passed : ∀ j i, stands j i → (∀ s, (front s j).2 = (step s i).2) ∧
      (∀ s t, (step s i).1 = (step t i).1 → (front s j).1 = (front t j).1) ∧
      ∀ g s, tick' g (front s j).1 = tick g (step s i).1)
    (kept : ∀ j, (∀ i, ¬ stands j i) → ∃ o, (∀ s, front s j = (o, s)) ∧ ∀ g, tick' g o = g) :
    Unwinding front tick' (fun g s own j => ∀ i, stands j i → may g s own i) R where
  own := by
    intro g s t j related permitted
    by_cases reaches : ∃ i, stands j i
    · obtain ⟨i, through⟩ := reaches
      obtain ⟨state, answer, ticks⟩ := passed j i through
      obtain ⟨same, next⟩ := unwinding.own g s t i related (permitted i through)
      rw [ticks, state, state]
      exact ⟨answer s t same, next⟩
    · obtain ⟨o, answers, ticks⟩ := kept j (not_exists.mp reaches)
      rw [answers, answers, ticks]
      exact ⟨rfl, related⟩
  other := by
    intro g s t j related permitted
    by_cases reaches : ∃ i, stands j i
    · obtain ⟨i, through⟩ := reaches
      rw [(passed j i through).1]
      exact unwinding.other g s t i related (permitted i through)
    · obtain ⟨o, answers, _⟩ := kept j (not_exists.mp reaches)
      rw [answers]
      exact related

end Interleaving

end Machine
