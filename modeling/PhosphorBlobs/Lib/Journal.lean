import Mathlib.Logic.Function.Basic
import Mathlib.Data.List.Induction

/-! A table rebuilt from a journal. Each entry writes at most one key, with a value or
with its removal; the table holds at a key exactly what the latest writing entry left. -/
namespace Journal

variable {ε κ ν : Type*} [DecidableEq κ]

def blank : κ → Option ν := fun _ => none

def apply (writes : ε → Option (κ × Option ν)) (table : κ → Option ν) (e : ε) : κ → Option ν :=
  match writes e with
  | some (k, v) => Function.update table k v
  | none => table

def replay (writes : ε → Option (κ × Option ν)) (entries : List ε) : κ → Option ν :=
  entries.foldl (apply writes) blank

/-- The last entry that writes the key, whatever it writes there. -/
def latest (writes : ε → Option (κ × Option ν)) (entries : List ε) (k : κ) : Option ε :=
  (entries.filter fun e => (writes e).any fun w => w.1 = k).getLast?

variable {writes : ε → Option (κ × Option ν)}

@[simp] theorem replay_append (past more : List ε) :
    replay writes (past ++ more) = more.foldl (apply writes) (replay writes past) := by
  simp [replay]

theorem apply_silent {e : ε} (silent : writes e = none) (table : κ → Option ν) :
    apply writes table e = table := by
  simp [apply, silent]

theorem apply_write {e : ε} {k : κ} {v : Option ν} (write : writes e = some (k, v))
    (table : κ → Option ν) : apply writes table e = Function.update table k v := by
  simp [apply, write]

theorem foldl_silent {more : List ε} (silent : ∀ e ∈ more, writes e = none)
    (table : κ → Option ν) : more.foldl (apply writes) table = table := by
  induction more with
  | nil => rfl
  | cons e rest ih =>
    have head := apply_silent (silent e List.mem_cons_self) table
    rw [List.foldl_cons, head]
    exact ih fun f hf => silent f (List.mem_cons_of_mem e hf)

theorem foldl_absent {more : List ε} {k : κ}
    (removes : ∀ e ∈ more, ∀ w, writes e = some w → w.2 = none) {table : κ → Option ν}
    (absent : table k = none) : more.foldl (apply writes) table k = none := by
  induction more generalizing table with
  | nil => exact absent
  | cons e rest ih =>
    apply ih fun f hf => removes f (List.mem_cons_of_mem e hf)
    cases hw : writes e with
    | none => rw [apply_silent hw, absent]
    | some w =>
      obtain ⟨key, v⟩ := w
      have gone : v = none := removes e List.mem_cons_self _ hw
      rw [apply_write hw, gone, Function.update_apply, absent, ite_self]

theorem foldl_elsewhere {more : List ε} {k : κ}
    (elsewhere : ∀ e ∈ more, ∀ w, writes e = some w → w.1 ≠ k) (table : κ → Option ν) :
    more.foldl (apply writes) table k = table k := by
  induction more generalizing table with
  | nil => rfl
  | cons e rest ih =>
    have tail := ih fun f hf => elsewhere f (List.mem_cons_of_mem e hf)
    rw [List.foldl_cons, tail]
    cases hw : writes e with
    | none => rw [apply_silent hw]
    | some w =>
      obtain ⟨key, v⟩ := w
      rw [apply_write hw]
      exact Function.update_of_ne (elsewhere e List.mem_cons_self _ hw).symm v table

theorem replay_writes (entries : List ε) : replay writes entries = replay some (entries.filterMap writes) := by
  unfold replay
  rw [List.foldl_filterMap]
  congr
  funext table e
  cases hw : writes e with
  | none => exact apply_silent hw table
  | some w => exact apply_write hw table

theorem latest_concat (entries : List ε) (e : ε) (k : κ) :
    latest writes (entries ++ [e]) k =
      if (writes e).any (fun w => w.1 = k) then some e else latest writes entries k := by
  unfold latest
  by_cases hit : (writes e).any (fun w => w.1 = k)
  · simp [List.filter_append, hit]
  · simp [List.filter_append, hit]

theorem latest_append (past more : List ε) (k : κ) :
    latest writes (past ++ more) k = (latest writes more k).or (latest writes past k) := by
  unfold latest
  rw [List.filter_append, List.getLast?_append]

theorem latest_writes {entries : List ε} {k : κ} {e : ε} (last : latest writes entries k = some e) :
    ∃ v, writes e = some (k, v) := by
  have member := (List.mem_filter.mp (List.mem_of_getLast? last)).2
  obtain ⟨⟨key, v⟩, write, same⟩ := (Option.any_eq_true _ _).mp member
  cases of_decide_eq_true same
  exact ⟨v, write⟩

theorem latest_split {entries : List ε} {k : κ} {e : ε} (last : latest writes entries k = some e) :
    ∃ before after, entries = before ++ e :: after ∧
      ∀ f ∈ after, ∀ w, writes f = some w → w.1 ≠ k := by
  induction entries using List.reverseRecOn with
  | nil => cases last
  | append_singleton past f ih =>
    rw [latest_concat] at last
    split at last
    · cases last
      exact ⟨past, [], rfl, nofun⟩
    · rename_i misses
      obtain ⟨before, after, rfl, quiet⟩ := ih last
      refine ⟨before, after ++ [f], by simp, fun g inside w write => ?_⟩
      rcases List.mem_append.mp inside with earlier | here
      · exact quiet g earlier w write
      · cases List.mem_singleton.mp here
        simpa [write] using misses

theorem replay_eq_latest (entries : List ε) (k : κ) :
    replay writes entries k = (latest writes entries k).bind fun e => (writes e).bind (·.2) := by
  induction entries using List.reverseRecOn with
  | nil => rfl
  | append_singleton past e ih =>
    rw [replay_append, latest_concat, List.foldl_cons, List.foldl_nil]
    cases hw : writes e with
    | none => simpa [apply_silent hw] using ih
    | some w =>
      obtain ⟨key, v⟩ := w
      rw [apply_write hw]
      by_cases same : key = k
      · subst same
        simp [hw]
      · simpa [same, Function.update_of_ne (Ne.symm same)] using ih

theorem replay_concat (past : List ε) (e : ε) (k : κ) :
    replay writes (past ++ [e]) k =
      if (writes e).any (fun w => w.1 = k) then (writes e).bind (·.2) else replay writes past k := by
  rw [replay_eq_latest, latest_concat, replay_eq_latest]
  split <;> rfl

theorem replay_held {past : List ε} {e : ε} {k : κ} {v : ν}
    (held : replay writes (past ++ [e]) k = some v) :
    writes e = some (k, some v) ∨
      (∀ w, writes e = some w → w.1 ≠ k) ∧ replay writes past k = some v := by
  rw [replay_concat] at held
  cases hw : writes e with
  | none => exact .inr ⟨nofun, by simpa [hw] using held⟩
  | some w =>
    obtain ⟨key, value⟩ := w
    by_cases same : key = k
    · subst same
      left
      simpa [hw] using held
    · right
      refine ⟨?_, by simpa [hw, same] using held⟩
      rintro _ ⟨⟩
      exact same

/-- A second journal of the same entries, in which some of them are not seen: where its table
differs, the latest write in the first is by an entry that the second does not see. -/
theorem replay_hiding {μ : Type*} {others : ε → Option (κ × Option μ)} {f : ν → μ} {hidden : ε → Prop}
    (unseen : ∀ e, hidden e → others e = none)
    (seen : ∀ e, ¬ hidden e → others e = (writes e).map fun w => (w.1, w.2.map f))
    (entries : List ε) (k : κ) :
    replay others entries k = (replay writes entries k).map f ∨
      ∃ e v, hidden e ∧ latest writes entries k = some e ∧ writes e = some (k, v) := by
  induction entries using List.reverseRecOn with
  | nil => exact .inl rfl
  | append_singleton past e ih =>
    rw [replay_concat, replay_concat, latest_concat]
    by_cases hid : hidden e
    · rw [unseen e hid]
      cases hw : writes e with
      | none => simpa using ih
      | some w =>
        by_cases hit : w.1 = k
        · exact .inr ⟨e, w.2, hid, by simp [hit], by rw [hw, ← hit]⟩
        · simpa [hit] using ih
    · rw [seen e hid]
      cases hw : writes e with
      | none => simpa using ih
      | some w =>
        by_cases hit : w.1 = k
        · exact .inl (by simp [hit])
        · simpa [hit] using ih

theorem replay_eq_some_iff {entries : List ε} {k : κ} {v : ν} :
    replay writes entries k = some v ↔
      ∃ e, latest writes entries k = some e ∧ writes e = some (k, some v) := by
  rw [replay_eq_latest, Option.bind_eq_some_iff]
  constructor
  · rintro ⟨e, last, write⟩
    obtain ⟨value, writing⟩ := latest_writes last
    rw [writing, Option.bind_some] at write
    cases write
    exact ⟨e, last, writing⟩
  · rintro ⟨e, last, write⟩
    exact ⟨e, last, by simp [write]⟩

end Journal
