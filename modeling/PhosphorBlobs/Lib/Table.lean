import Mathlib.Data.Finmap
import Mathlib.Combinatorics.Enumerative.DoubleCounting

/-! Finite tables with a subscript that inserts, and the number of their entries that
satisfy a predicate. -/

abbrev Table (α β : Type*) := Finmap fun _ : α => β

namespace Table

variable {α β : Type*} [DecidableEq α]

/-- The entry at a key, after a default has been inserted where there was none. -/
def subscript (fallback : β) (a : α) (t : Table α β) : β × Table α β :=
  match t.lookup a with
  | some b => (b, t)
  | none => (fallback, t.insert a fallback)

/-- Replace the entry at a key, reading an absent one as the default. -/
def update (fallback : β) (f : β → β) (a : α) (t : Table α β) : Table α β :=
  t.insert a (f ((t.lookup a).getD fallback))

theorem subscript_present {fallback b : β} {a : α} {t : Table α β} (h : t.lookup a = some b) :
    subscript fallback a t = (b, t) := by
  simp [subscript, h]

theorem getD_subscript (fallback : β) (a b : α) (t : Table α β) :
    ((subscript fallback a t).2.lookup b).getD fallback = (t.lookup b).getD fallback := by
  unfold subscript
  split
  · rfl
  · rename_i absent
    by_cases same : b = a
    · subst same
      simp [absent]
    · simp [Finmap.lookup_insert_of_ne t same]

theorem lookup_subscript (fallback : β) (a b : α) (t : Table α β) :
    (subscript fallback a t).2.lookup b =
      if b = a then some ((t.lookup a).getD fallback) else t.lookup b := by
  unfold subscript
  split
  · rename_i present
    split_ifs with same
    · rw [same, present, Option.getD_some]
    · rfl
  · rename_i absent
    split_ifs with same
    · rw [same, Finmap.lookup_insert, absent, Option.getD_none]
    · exact Finmap.lookup_insert_of_ne t same

theorem lookup_update (fallback : β) (f : β → β) (a b : α) (t : Table α β) :
    (update fallback f a t).lookup b =
      if b = a then some (f ((t.lookup a).getD fallback)) else t.lookup b := by
  unfold update
  split
  · rename_i same
    rw [same, Finmap.lookup_insert]
  · rename_i different
    exact Finmap.lookup_insert_of_ne t different

theorem lookup_insert_if (a b : α) (v : β) (t : Table α β) :
    (t.insert a v).lookup b = if b = a then some v else t.lookup b := by
  split
  · rename_i same
    rw [same, Finmap.lookup_insert]
  · rename_i different
    exact Finmap.lookup_insert_of_ne t different

theorem lookup_erase_if (a b : α) (t : Table α β) :
    (t.erase a).lookup b = if b = a then none else t.lookup b := by
  split
  · rename_i same
    rw [same, Finmap.lookup_erase]
  · rename_i different
    exact Finmap.lookup_erase_ne different

def matching (P : β → Bool) (t : Table α β) : Finset α := t.keys.filter fun a => (t.lookup a).any P

def tally (P : β → Bool) (t : Table α β) : Nat := (matching P t).card

theorem mem_matching {P : β → Bool} {t : Table α β} {a : α} :
    a ∈ matching P t ↔ ∃ b, t.lookup a = some b ∧ P b = true := by
  rw [matching, Finset.mem_filter, Finmap.mem_keys, Finmap.mem_iff]
  constructor
  · rintro ⟨⟨b, hb⟩, holds⟩
    exact ⟨b, hb, by simpa [hb] using holds⟩
  · rintro ⟨b, hb, holds⟩
    exact ⟨⟨b, hb⟩, by simpa [hb] using holds⟩

@[simp] theorem tally_empty (P : β → Bool) : tally P (∅ : Table α β) = 0 := by
  simp [tally, matching]

theorem tally_pos {P : β → Bool} {t : Table α β} {a : α} {b : β} (h : t.lookup a = some b)
    (holds : P b = true) : 0 < tally P t :=
  Finset.card_pos.mpr ⟨a, mem_matching.mpr ⟨b, h, holds⟩⟩

theorem tally_eq_zero {P : β → Bool} {t : Table α β} :
    tally P t = 0 ↔ ∀ a b, t.lookup a = some b → P b = false := by
  rw [tally, Finset.card_eq_zero, Finset.eq_empty_iff_forall_notMem]
  constructor
  · intro empty a b hb
    have out := empty a
    rw [mem_matching] at out
    by_contra holds
    exact out ⟨b, hb, by simpa using holds⟩
  · intro none a ha
    obtain ⟨b, hb, holds⟩ := mem_matching.mp ha
    simp [none a b hb] at holds

theorem tally_insert_new (P : β → Bool) {t : Table α β} {a : α} (b : β) (fresh : t.lookup a = none) :
    tally P (t.insert a b) = tally P t + if P b then 1 else 0 := by
  have other : ∀ c, c ∈ matching P (t.insert a b) ↔ (c = a ∧ P b = true) ∨ c ∈ matching P t := by
    intro c
    simp only [mem_matching, lookup_insert_if]
    by_cases same : c = a
    · subst same; simp [fresh]
    · simp [same]
  have out : a ∉ matching P t := by simp [mem_matching, fresh]
  unfold tally
  by_cases holds : P b = true
  · have grown : matching P (t.insert a b) = Finset.cons a (matching P t) out := by
      ext c; rw [other, Finset.mem_cons]; simp [holds]
    rw [grown, Finset.card_cons, if_pos holds]
  · have kept : matching P (t.insert a b) = matching P t := by
      ext c; rw [other]; simp [holds]
    rw [kept, if_neg holds]; rfl

theorem tally_insert_same (P : β → Bool) {t : Table α β} {a : α} {old new : β}
    (h : t.lookup a = some old) (same : P new = P old) : tally P (t.insert a new) = tally P t := by
  have kept : matching P (t.insert a new) = matching P t := by
    ext c
    simp only [mem_matching, lookup_insert_if]
    by_cases hit : c = a
    · subst hit; simp [h, same]
    · simp [hit]
  rw [tally, kept, tally]

theorem tally_erase (P : β → Bool) {t : Table α β} {a : α} {b : β} (h : t.lookup a = some b) :
    tally P (t.erase a) + (if P b then 1 else 0) = tally P t := by
  have fresh : (t.erase a).lookup a = none := Finmap.lookup_erase a t
  have back : (t.erase a).insert a b = t := by
    apply Finmap.ext_lookup
    intro c
    rw [lookup_insert_if, lookup_erase_if]
    split
    · rename_i same; rw [same, h]
    · rfl
  have grown := tally_insert_new P b fresh
  rw [back] at grown
  exact grown.symm

theorem tally_le (P : β → Bool) (t : Table α β) {number : α → Nat} {bound : Nat}
    (injective : Function.Injective number) (below : ∀ a, number a < bound) :
    tally P t ≤ bound := by
  have inside : (matching P t).image number ⊆ Finset.range bound := by
    intro n hn
    obtain ⟨a, _, rfl⟩ := Finset.mem_image.mp hn
    exact Finset.mem_range.mpr (below a)
  have fits := Finset.card_le_card inside
  rwa [Finset.card_image_of_injective _ injective, Finset.card_range] at fits

omit [DecidableEq α] in
theorem card_keys_le {γ δ : Type*} [DecidableEq γ] (t : Table α β) (u : Table γ δ) (name : δ → α)
    (named : ∀ a ∈ t, ∃ c d, u.lookup c = some d ∧ name d = a) : t.keys.card ≤ u.keys.card := by
  refine Finset.card_le_card_of_forall_subsingleton
    (fun a c => ∃ d, u.lookup c = some d ∧ name d = a) ?_ ?_
  · intro a ha
    obtain ⟨c, d, found, same⟩ := named a (Finmap.mem_keys.mp ha)
    exact ⟨c, Finmap.mem_keys.mpr (Finmap.mem_of_lookup_eq_some found), d, found, same⟩
  · rintro c _ a ⟨_, d, found, rfl⟩ b ⟨_, e, also, rfl⟩
    rw [found] at also
    cases also
    rfl

end Table
