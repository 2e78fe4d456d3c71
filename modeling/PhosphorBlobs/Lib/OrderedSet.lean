import Mathlib.Data.Finset.Sort

/-! A set kept as a strictly ascending list, so that walking it is deterministic.
The order is a field of the value: an unsorted or repeated list cannot be built. -/

structure OrderedSet (α : Type*) [LinearOrder α] where
  elems : List α
  ascending : elems.Pairwise (· < ·)

namespace OrderedSet

variable {α : Type*} [LinearOrder α]

instance : Membership α (OrderedSet α) := ⟨fun s a => a ∈ s.elems⟩
instance : EmptyCollection (OrderedSet α) := ⟨⟨[], List.Pairwise.nil⟩⟩
instance (a : α) (s : OrderedSet α) : Decidable (a ∈ s) := inferInstanceAs (Decidable (a ∈ s.elems))

theorem mem_def {a : α} {s : OrderedSet α} : a ∈ s ↔ a ∈ s.elems := Iff.rfl

@[simp] theorem not_mem_empty (a : α) : a ∉ (∅ : OrderedSet α) := List.not_mem_nil

@[simp] theorem elems_empty : (∅ : OrderedSet α).elems = [] := rfl

theorem nodup (s : OrderedSet α) : s.elems.Nodup :=
  s.ascending.imp ne_of_lt

def place (a : α) : List α → List α
  | [] => [a]
  | b :: bs => if a < b then a :: b :: bs else if b < a then b :: place a bs else b :: bs

theorem mem_place {a b : α} {xs : List α} : b ∈ place a xs ↔ b = a ∨ b ∈ xs := by
  induction xs with
  | nil => simp [place]
  | cons c cs ih =>
    unfold place
    split
    · exact List.mem_cons
    · split
      · simp only [List.mem_cons, ih]
        exact or_left_comm
      · have same : a = c := le_antisymm (not_lt.mp ‹_›) (not_lt.mp ‹_›)
        simp [same]

theorem place_ascending (a : α) {xs : List α} (h : xs.Pairwise (· < ·)) :
    (place a xs).Pairwise (· < ·) := by
  induction h with
  | nil => exact List.pairwise_singleton _ a
  | @cons b bs above tail ih =>
    unfold place
    split
    · rename_i less
      refine .cons ?_ (.cons above tail)
      intro c hc
      rcases List.mem_cons.mp hc with rfl | hc
      · exact less
      · exact lt_trans less (above c hc)
    · split
      · rename_i greater
        refine .cons ?_ ih
        intro c hc
        rcases mem_place.mp hc with rfl | hc
        · exact greater
        · exact above c hc
      · exact .cons above tail

def insert (a : α) (s : OrderedSet α) : OrderedSet α := ⟨place a s.elems, place_ascending a s.ascending⟩

def erase (a : α) (s : OrderedSet α) : OrderedSet α :=
  ⟨s.elems.filter (· ≠ a), s.ascending.filter _⟩

@[simp] theorem mem_insert {a b : α} {s : OrderedSet α} : b ∈ s.insert a ↔ b = a ∨ b ∈ s := mem_place

@[simp] theorem mem_erase {a b : α} {s : OrderedSet α} : b ∈ s.erase a ↔ b ≠ a ∧ b ∈ s := by
  simp [mem_def, erase, and_comm]

theorem elems_sorted {s : OrderedSet α} {t : Finset α} (same : ∀ a, a ∈ s ↔ a ∈ t) :
    s.elems = t.sort := by
  have members : s.elems.toFinset = t := by
    ext a
    rw [List.mem_toFinset, ← mem_def, same]
  have sorted : s.elems.toFinset.sort = s.elems :=
    (List.toFinset_sort (· ≤ ·) s.nodup).mpr (s.ascending.imp le_of_lt)
  rw [← sorted, members]

end OrderedSet
