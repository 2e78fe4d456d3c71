import Mathlib.Data.List.Induction

/-! Blocks written over a buffer. A position holds what the latest block that covers it has
brought, and what it held before where no block covers it. -/
namespace Overlay

variable {α : Type*}

structure Block (α : Type*) where
  offset : Nat
  data : List α

namespace Block

def stop (b : Block α) : Nat := b.offset + b.data.length

def value? (b : Block α) (p : Nat) : Option α := if p < b.offset then none else b.data[p - b.offset]?

theorem value?_isSome {b : Block α} {p : Nat} : (b.value? p).isSome = true ↔ b.offset ≤ p ∧ p < b.stop := by
  unfold value? stop
  split
  · simp
    omega
  · simp
    omega

/-- The block repeats what the target holds at its positions. -/
def PieceOf (b : Block α) (target : List α) : Prop :=
  ∀ p v, b.value? p = some v → target[p]? = some v

theorem PieceOf.fits {b : Block α} {target : List α} (piece : b.PieceOf target) (some : b.data ≠ []) :
    b.stop ≤ target.length := by
  have bytes := List.length_pos_iff.mpr some
  obtain ⟨v, last⟩ := Option.isSome_iff_exists.mp
    (value?_isSome.mpr (⟨by simp only [stop]; omega, by simp only [stop]; omega⟩ :
      b.offset ≤ b.stop - 1 ∧ b.stop - 1 < b.stop))
  have inside := (List.getElem?_eq_some_iff.mp (piece _ v last)).1
  omega

theorem PieceOf.slice {b : Block α} {target : List α}
    (same : b.data = (target.drop b.offset).take b.data.length) : b.PieceOf target := by
  intro p v brings
  unfold value? at brings
  split at brings
  · cases brings
  · rename_i inside
    have there : b.offset + (p - b.offset) = p := by omega
    have bound := (List.getElem?_eq_some_iff.mp brings).1
    rwa [same, List.getElem?_take_of_lt bound, List.getElem?_drop, there] at brings

end Block

def write (buffer : List α) (b : Block α) : List α :=
  buffer.take b.offset ++ (b.data ++ buffer.drop b.stop)

theorem length_write {buffer : List α} {b : Block α} (fits : b.stop ≤ buffer.length) :
    (write buffer b).length = buffer.length := by
  unfold Block.stop at fits
  simp only [write, Block.stop, List.length_append, List.length_take, List.length_drop]
  omega

theorem getElem?_write {buffer : List α} {b : Block α} (fits : b.stop ≤ buffer.length) (p : Nat) :
    (write buffer b)[p]? = (b.value? p).or buffer[p]? := by
  unfold Block.stop at fits
  have front : (buffer.take b.offset).length = b.offset := by
    rw [List.length_take]
    omega
  unfold write Block.value?
  by_cases before : p < b.offset
  · rw [List.getElem?_append_left (by omega), List.getElem?_take_of_lt before, if_pos before,
      Option.none_or]
  · rw [List.getElem?_append_right (by omega), front, if_neg before]
    by_cases inside : p - b.offset < b.data.length
    · rw [List.getElem?_append_left inside, List.getElem?_eq_getElem inside, Option.some_or]
    · have behind : b.stop + (p - b.offset - b.data.length) = p := by
        simp only [Block.stop]
        omega
      have nothing : b.data[p - b.offset]? = none := List.getElem?_eq_none (by omega)
      rw [List.getElem?_append_right (by omega), List.getElem?_drop, behind, nothing, Option.none_or]

def writeAll (buffer : List α) (blocks : List (Block α)) : List α := blocks.foldl write buffer

/-- What the latest block that covers the position brings to it. -/
def latest? (blocks : List (Block α)) (p : Nat) : Option α :=
  blocks.foldl (fun found b => (b.value? p).or found) none

def extent (blocks : List (Block α)) : Nat := blocks.foldl (fun most b => max b.stop most) 0

theorem latest?_concat (blocks : List (Block α)) (b : Block α) (p : Nat) :
    latest? (blocks ++ [b]) p = (b.value? p).or (latest? blocks p) := by
  simp [latest?]

theorem writeAll_concat (buffer : List α) (blocks : List (Block α)) (b : Block α) :
    writeAll buffer (blocks ++ [b]) = write (writeAll buffer blocks) b := by
  simp [writeAll]

theorem extent_concat (blocks : List (Block α)) (b : Block α) :
    extent (blocks ++ [b]) = max b.stop (extent blocks) := by
  simp [extent]

theorem extent_le {blocks : List (Block α)} {n : Nat} (fit : ∀ b ∈ blocks, b.stop ≤ n) :
    extent blocks ≤ n := by
  induction blocks using List.reverseRecOn with
  | nil => exact Nat.zero_le n
  | append_singleton past b ih =>
    rw [extent_concat]
    exact Nat.max_le.mpr ⟨fit b (by simp), ih fun c hc => fit c (List.mem_append_left _ hc)⟩

theorem le_extent {blocks : List (Block α)} {b : Block α} (inside : b ∈ blocks) :
    b.stop ≤ extent blocks := by
  induction blocks using List.reverseRecOn with
  | nil => cases inside
  | append_singleton past c ih =>
    rw [extent_concat]
    rcases List.mem_append.mp inside with earlier | last
    · exact Nat.le_trans (ih earlier) (Nat.le_max_right c.stop _)
    · rw [List.mem_singleton.mp last]
      exact Nat.le_max_left c.stop _

theorem extent_covered {blocks : List (Block α)} {n : Nat} (within : ∀ b ∈ blocks, b.stop ≤ n)
    (covered : ∀ p < n, ∃ b ∈ blocks, b.offset ≤ p ∧ p < b.stop) : extent blocks = n := by
  apply Nat.le_antisymm (extent_le within)
  cases n with
  | zero => exact Nat.zero_le _
  | succ last =>
    obtain ⟨b, inside, _, here⟩ := covered last (Nat.lt_succ_self last)
    exact Nat.le_trans here (le_extent inside)

theorem length_writeAll {buffer : List α} {blocks : List (Block α)}
    (fit : ∀ b ∈ blocks, b.stop ≤ buffer.length) :
    (writeAll buffer blocks).length = buffer.length := by
  induction blocks using List.reverseRecOn with
  | nil => rfl
  | append_singleton past b ih =>
    have before := ih fun c hc => fit c (List.mem_append_left _ hc)
    rw [writeAll_concat, length_write (by rw [before]; exact fit b (by simp)), before]

theorem getElem?_writeAll {buffer : List α} {blocks : List (Block α)}
    (fit : ∀ b ∈ blocks, b.stop ≤ buffer.length) (p : Nat) :
    (writeAll buffer blocks)[p]? = (latest? blocks p).or buffer[p]? := by
  induction blocks using List.reverseRecOn with
  | nil => rfl
  | append_singleton past b ih =>
    have fits : ∀ c ∈ past, c.stop ≤ buffer.length := fun c hc => fit c (List.mem_append_left _ hc)
    have last : b.stop ≤ (writeAll buffer past).length := by
      rw [length_writeAll fits]
      exact fit b (by simp)
    rw [writeAll_concat, getElem?_write last, ih fits, latest?_concat, Option.or_assoc]

theorem latest?_append (old new : List (Block α)) (p : Nat) :
    latest? (old ++ new) p = (latest? new p).or (latest? old p) := by
  induction new using List.reverseRecOn with
  | nil => simp [latest?]
  | append_singleton past b ih =>
    rw [← List.append_assoc, latest?_concat, latest?_concat, ih, Option.or_assoc]

/-- Where a piece of the target covers a position, the pieces together bring the target's
value to it, in whatever order and however often they come. -/
theorem latest?_pieces {blocks : List (Block α)} {target : List α}
    (pieces : ∀ b ∈ blocks, b.PieceOf target) {p : Nat}
    (covered : ∃ b ∈ blocks, b.offset ≤ p ∧ p < b.stop) : latest? blocks p = target[p]? := by
  induction blocks using List.reverseRecOn with
  | nil =>
    obtain ⟨b, inside, _⟩ := covered
    cases inside
  | append_singleton past b ih =>
    rw [latest?_concat]
    cases brings : b.value? p with
    | some v => rw [Option.some_or, pieces b (by simp) p v brings]
    | none =>
      rw [Option.none_or]
      refine ih (fun c hc => pieces c (List.mem_append_left _ hc)) ?_
      obtain ⟨c, inside, here⟩ := covered
      rcases List.mem_append.mp inside with earlier | last
      · exact ⟨c, earlier, here⟩
      · have some_value := Block.value?_isSome.mpr here
        rw [List.mem_singleton.mp last, brings] at some_value
        cases some_value

def slice (buffer : List α) (offset n : Nat) : List α := (buffer.drop offset).take n

theorem slice_congr {a b : List α} {offset n : Nat}
    (same : ∀ p, offset ≤ p → p < offset + n → a[p]? = b[p]?) : slice a offset n = slice b offset n := by
  apply List.ext_getElem?
  intro i
  simp only [slice, List.getElem?_take, List.getElem?_drop]
  split
  · exact same (offset + i) (by omega) (by omega)
  · rfl

end Overlay
