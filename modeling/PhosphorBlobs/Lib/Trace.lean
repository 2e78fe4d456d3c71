import Mathlib.Data.List.Induction

/-! Traces that grow at their end, each entry allowed by the entries before it. What holds
of every entry given its past is proved where the trace grows, and used by induction. -/
namespace Trace

variable {ε : Type*}

inductive Grown (ok : List ε → ε → Prop) : List ε → Prop where
  | nil : Grown ok []
  | snoc {past : List ε} {e : ε} (before : Grown ok past) (allowed : ok past e) :
      Grown ok (past ++ [e])

variable {ok : List ε → ε → Prop}

theorem Grown.last {past : List ε} {e : ε} (grown : Grown ok (past ++ [e])) :
    Grown ok past ∧ ok past e := by
  generalize same : past ++ [e] = all at grown
  cases grown with
  | nil => simp at same
  | snoc before allowed =>
    obtain ⟨rfl, last⟩ := List.append_inj' same rfl
    cases last
    exact ⟨before, allowed⟩

theorem grown_iff_split {all : List ε} :
    Grown ok all ↔ ∀ before e after, all = before ++ e :: after → ok before e := by
  induction all using List.reverseRecOn with
  | nil => exact ⟨fun _ _ _ _ split => by simp at split, fun _ => .nil⟩
  | append_singleton past e ih =>
    constructor
    · intro grown before f after split
      obtain ⟨inside, allowed⟩ := grown.last
      rcases List.eq_nil_or_concat after with rfl | ⟨rest, last, rfl⟩
      · obtain ⟨rfl, same⟩ := List.append_inj' split rfl
        cases same
        exact allowed
      · have shorter : past ++ [e] = (before ++ f :: rest) ++ [last] := by simpa using split
        exact ih.mp inside before f rest (List.append_inj' shorter rfl).1
    · intro each
      refine .snoc (ih.mpr fun before f after split => ?_) (each past e [] rfl)
      exact each before f (after ++ [e]) (by simp [split])

theorem Grown.append {past more : List ε} (grown : Grown ok past)
    (allowed : ∀ before e after, more = before ++ e :: after → ok (past ++ before) e) :
    Grown ok (past ++ more) := by
  induction more using List.reverseRecOn with
  | nil => rwa [List.append_nil]
  | append_singleton front e ih =>
    rw [← List.append_assoc]
    refine .snoc (ih fun before f after split => ?_) (allowed front e [] rfl)
    exact allowed before f (after ++ [e]) (by simp [split])

end Trace
