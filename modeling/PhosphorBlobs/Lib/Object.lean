import Mathlib.Tactic.TypeStar

/-! An object of which a record of calls is all there is. Its state is what its own calls made
of it, in their order. What a call finds in memory that nobody has set comes from outside, one
value for each place of the record. -/
namespace Object

variable {ε σ ν : Type*} (mine : ε → Bool) (noise : Nat → ν) (next : ν → ε → σ → σ)

/-- The state after one more entry, with the number of entries so far. -/
def advance (now : Nat × σ) (e : ε) : Nat × σ :=
  (now.1 + 1, if mine e then next (noise now.1) e now.2 else now.2)

def replay (start : σ) (record : List ε) : σ := (record.foldl (advance mine noise next) (0, start)).2

theorem advance_count (now : Nat × σ) (record : List ε) :
    (record.foldl (advance mine noise next) now).1 = now.1 + record.length := by
  induction record generalizing now with
  | nil => rfl
  | cons e rest ih =>
    rw [List.foldl_cons, ih, List.length_cons]
    simp only [advance]
    omega

theorem replay_concat (start : σ) (past : List ε) (e : ε) :
    replay mine noise next start (past ++ [e]) =
      if mine e then next (noise past.length) e (replay mine noise next start past)
      else replay mine noise next start past := by
  have count := advance_count mine noise next (0, start) past
  rw [Nat.zero_add] at count
  rw [replay, List.foldl_append, List.foldl_cons, List.foldl_nil, advance, count]
  rfl

end Object
