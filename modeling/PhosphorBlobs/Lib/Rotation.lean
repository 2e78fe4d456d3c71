import Mathlib.Dynamics.PeriodicPts.Defs

/-! A cursor that walks round its positions and takes the first free one it meets. What is
free may change between two walks, but the cursor only moves on, so it comes back to a
position only after it has looked at all others. -/
namespace Rotation

variable {α : Type*} (succ : α → α)

/-- The position taken on a walk over `left` positions at most, and the cursor behind the
last one looked at. -/
def scan (free : α → Bool) : Nat → α → Option α × α
  | 0, c => (none, c)
  | left + 1, c => if free c then (some c, succ c) else scan free left (succ c)

/-- The cursor went from one position to another, and each position it left was seen. -/
def Swept (seen : α → Prop) (c d : α) : Prop :=
  ∃ n, succ^[n] c = d ∧ ∀ k < n, seen (succ^[k] c)

variable {succ} {free : α → Bool} {seen : α → Prop}

theorem Swept.refl (seen : α → Prop) (c : α) : Swept succ seen c c := ⟨0, rfl, nofun⟩

theorem Swept.trans {c d e : α} (first : Swept succ seen c d) (second : Swept succ seen d e) :
    Swept succ seen c e := by
  obtain ⟨n, rfl, before⟩ := first
  obtain ⟨m, rfl, after⟩ := second
  refine ⟨m + n, Function.iterate_add_apply succ m n c, ?_⟩
  intro k hk
  by_cases early : k < n
  · exact before k early
  · have late := after (k - n) (by omega)
    rwa [← Function.iterate_add_apply, Nat.sub_add_cancel (not_lt.mp early)] at late

theorem Swept.mono {more : α → Prop} {c d : α} (swept : Swept succ seen c d)
    (wider : ∀ y, seen y → more y) : Swept succ more c d := by
  obtain ⟨n, there, all⟩ := swept
  exact ⟨n, there, fun k hk => wider _ (all k hk)⟩

theorem Swept.single {c : α} (here : seen c) : Swept succ seen c (succ c) := by
  refine ⟨1, rfl, fun k hk => ?_⟩
  rw [Nat.lt_one_iff.mp hk]
  exact here

theorem Swept.round {x y : α} (swept : Swept succ seen (succ x) x) (reach : ∃ n, succ^[n] x = y)
    (other : y ≠ x) : seen y := by
  obtain ⟨n, back, all⟩ := swept
  obtain ⟨j, rfl⟩ := reach
  have period : Function.IsPeriodicPt succ (n + 1) x := back
  have short := period.iterate_mod_apply j
  cases left : j % (n + 1) with
  | zero =>
    rw [left] at short
    exact absurd short.symm other
  | succ k =>
    have bound : j % (n + 1) < n + 1 := Nat.mod_lt j (Nat.succ_pos n)
    rw [left] at short
    rw [← short]
    exact all k (by omega)

theorem scan_behind {left : Nat} {c x : α} (taken : (scan succ free left c).1 = some x) :
    (scan succ free left c).2 = succ x := by
  induction left generalizing c with
  | zero => cases taken
  | succ left ih =>
    unfold scan at taken ⊢
    split_ifs at taken ⊢ with here
    · cases taken
      rfl
    · exact ih taken

theorem scan_exhausted {left : Nat} {c : α} (nothing : (scan succ free left c).1 = none) :
    (scan succ free left c).2 = succ^[left] c := by
  induction left generalizing c with
  | zero => rfl
  | succ left ih =>
    unfold scan at nothing ⊢
    split_ifs at nothing ⊢ with here
    exact ih nothing

theorem scan_some {left : Nat} {c x : α} (taken : (scan succ free left c).1 = some x) :
    ∃ k < left, succ^[k] c = x ∧ free x = true ∧ ∀ j < k, free (succ^[j] c) = false := by
  induction left generalizing c with
  | zero => cases taken
  | succ left ih =>
    unfold scan at taken
    split at taken
    · rename_i here
      cases taken
      exact ⟨0, Nat.succ_pos left, rfl, here, nofun⟩
    · rename_i busy
      obtain ⟨k, bound, there, taken, before⟩ := ih taken
      refine ⟨k + 1, Nat.succ_lt_succ bound, there, taken, fun j hj => ?_⟩
      cases j with
      | zero => exact Bool.eq_false_iff.mpr busy
      | succ j => exact before j (by omega)

theorem scan_none_iff {left : Nat} {c : α} :
    (scan succ free left c).1 = none ↔ ∀ k < left, free (succ^[k] c) = false := by
  induction left generalizing c with
  | zero => exact ⟨fun _ => nofun, fun _ => rfl⟩
  | succ left ih =>
    unfold scan
    split
    · rename_i here
      refine ⟨nofun, fun busy => ?_⟩
      have first := busy 0 (Nat.succ_pos left)
      rw [Function.iterate_zero, id, here] at first
      cases first
    · rename_i busy
      rw [ih]
      constructor
      · intro later k hk
        cases k with
        | zero => exact Bool.eq_false_iff.mpr busy
        | succ k => exact later k (by omega)
      · intro all k hk
        exact all (k + 1) (by omega)

theorem scan_swept (left : Nat) (c : α) :
    Swept succ (fun y => free y = false ∨ (scan succ free left c).1 = some y) c
      (scan succ free left c).2 := by
  induction left generalizing c with
  | zero => exact .refl _ c
  | succ left ih =>
    unfold scan
    split
    · exact .single (.inr rfl)
    · rename_i busy
      have later := ih (succ c)
      exact Swept.trans (.single (.inl (Bool.eq_false_iff.mpr busy))) later

theorem scan_reaches {left : Nat} {c x : α} (taken : (scan succ free left c).1 = some x) :
    Swept succ (fun y => free y = false) c x := by
  obtain ⟨k, _, there, _, before⟩ := scan_some taken
  exact ⟨k, there, before⟩

end Rotation
