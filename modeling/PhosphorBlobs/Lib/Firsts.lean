import Mathlib.Data.List.Perm.Basic
import Mathlib.Data.List.Induction

/-! Loops over a list that remember the keys they have met and treat each key once, where it
is met first. What one element adds to the output depends on the elements before it. -/
namespace Firsts

variable {α β γ κ : Type*}

/-- The output of a loop, from what each element adds behind the ones before it. -/
def along (f : List α → α → List β) : List α → List α → List β
  | _, [] => []
  | before, x :: rest => f before x ++ along f (before ++ [x]) rest

theorem filterMap_along (f : List α → α → List β) (g : β → Option γ) (before xs : List α) :
    (along f before xs).filterMap g = along (fun before x => (f before x).filterMap g) before xs := by
  induction xs generalizing before with
  | nil => rfl
  | cons x rest ih => rw [along, List.filterMap_append, ih, along]

theorem along_all (before xs : List α) : along (fun _ x => [x]) before xs = xs := by
  induction xs generalizing before with
  | nil => rfl
  | cons x rest ih => rw [along, ih, List.singleton_append]

variable [DecidableEq κ] (key : α → Option κ)

def new? (before : List α) (x : α) : Option κ :=
  (key x).filter fun k => decide (k ∉ before.filterMap key)

def firsts (xs : List α) : List κ := (xs.filterMap key).eraseDups

theorem mem_firsts {xs : List α} {k : κ} : k ∈ firsts key xs ↔ ∃ x ∈ xs, key x = some k := by
  rw [firsts, List.mem_eraseDups, List.mem_filterMap]

theorem firsts_snoc (xs : List α) (x : α) :
    firsts key (xs ++ [x]) = firsts key xs ++ (new? key xs x).toList := by
  rw [firsts, List.filterMap_append, List.eraseDups_append, firsts, new?]
  generalize xs.filterMap key = keys
  cases known : key x with
  | none => simp [known, List.removeAll]
  | some k =>
    have last : [x].filterMap key = [k] := by simp [known]
    rw [last]
    by_cases met : k ∈ keys
    · simp [met, List.removeAll, Option.filter]
    · simp [met, List.removeAll, Option.filter, List.eraseDups_cons]

theorem firsts_append (before xs : List α) :
    firsts key (before ++ xs) =
      firsts key before ++ along (fun before x => (new? key before x).toList) before xs := by
  induction xs generalizing before with
  | nil => rw [along, List.append_nil, List.append_nil]
  | cons x rest ih =>
    rw [along, ← List.append_assoc, ← firsts_snoc, ← ih, List.append_assoc, List.singleton_append]

theorem nodup_firsts (xs : List α) : (firsts key xs).Nodup := by
  induction xs using List.reverseRecOn with
  | nil => exact List.nodup_nil
  | append_singleton xs x ih =>
    rw [firsts_snoc, List.nodup_append]
    refine ⟨ih, ?_, ?_⟩
    · cases new? key xs x <;> simp
    · rintro k met l new rfl
      rw [Option.mem_toList, new?, Option.filter_eq_some_iff] at new
      rw [firsts, List.mem_eraseDups] at met
      exact absurd met (by simpa using new.2)

theorem firsts_perm {xs ys : List α} (perm : xs.Perm ys) : (firsts key xs).Perm (firsts key ys) := by
  refine (List.perm_ext_iff_of_nodup (nodup_firsts key xs) (nodup_firsts key ys)).mpr fun k => ?_
  rw [mem_firsts, mem_firsts]
  exact exists_congr fun x => and_congr_left fun _ => perm.mem_iff

end Firsts
