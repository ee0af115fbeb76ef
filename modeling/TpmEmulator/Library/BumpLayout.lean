import Mathlib.Data.Finmap
import Mathlib.Algebra.BigOperators.Group.Finset.Basic

/-!
The layout a bump allocator produces. The blocks are the values of a finite map;
each has a start and an extent, and the allocator's cursor stands at the sum of
the extents. A map is packed when every block ends at or before the cursor and
the blocks of distinct keys do not overlap. Allocating at the cursor and replacing
a block by one with the same place keep a map packed.
-/
namespace BumpLayout

variable {κ β : Type} [DecidableEq κ]

theorem keys_insert (m : Finmap fun _ : κ => β) (k : κ) (b : β) :
    (m.insert k b).keys = insert k m.keys := by
  ext l
  simp [Finmap.mem_keys, Finmap.mem_insert]

theorem keys_insert_of_mem {m : Finmap fun _ : κ => β} {k : κ} {a b : β}
    (h : m.lookup k = some a) : (m.insert k b).keys = m.keys := by
  rw [keys_insert]
  exact Finset.insert_eq_of_mem (Finmap.mem_keys.mpr (Finmap.mem_of_lookup_eq_some h))

/-- An entry of an updated map is the new one or an old one under another key. -/
theorem lookup_insert_eq_some {m : Finmap fun _ : κ => β} {k l : κ} {a b : β}
    (h : (m.insert k b).lookup l = some a) :
    (l = k ∧ a = b) ∨ (l ≠ k ∧ m.lookup l = some a) := by
  by_cases hl : l = k
  · subst hl
    rw [Finmap.lookup_insert] at h
    exact .inl ⟨rfl, (Option.some.inj h).symm⟩
  · rw [Finmap.lookup_insert_of_ne m hl] at h
    exact .inr ⟨hl, h⟩

/-- What holds of every block of a map and of a new one holds after the insertion. -/
theorem of_lookup_insert {m : Finmap fun _ : κ => β} {P : κ → β → Prop} {k l : κ} {a b : β}
    (h : (m.insert k b).lookup l = some a) (hm : ∀ {l a}, m.lookup l = some a → P l a)
    (hb : P k b) : P l a := by
  obtain ⟨rfl, rfl⟩ | ⟨-, hold⟩ := lookup_insert_eq_some h
  · exact hb
  · exact hm hold

variable (start extent : β → Nat)

/-- The sum of the extents of all blocks. -/
def total (m : Finmap fun _ : κ => β) : Nat := ∑ k ∈ m.keys, (m.lookup k).elim 0 extent

structure Packed (m : Finmap fun _ : κ => β) (cursor : Nat) : Prop where
  cursor_eq : cursor = total extent m
  inside : ∀ {k b}, m.lookup k = some b → start b + extent b ≤ cursor
  disjoint : ∀ {k l a b}, m.lookup k = some a → m.lookup l = some b → k ≠ l →
    start a + extent a ≤ start b ∨ start b + extent b ≤ start a

variable {start extent}

theorem total_empty : total extent (∅ : Finmap fun _ : κ => β) = 0 := rfl

theorem total_insert_of_notMem {m : Finmap fun _ : κ => β} {k : κ} (b : β) (h : k ∉ m) :
    total extent (m.insert k b) = total extent m + extent b := by
  have hk : k ∉ m.keys := fun hm => h (Finmap.mem_keys.mp hm)
  have hrest : ∑ l ∈ m.keys, ((m.insert k b).lookup l).elim 0 extent = total extent m := by
    refine Finset.sum_congr rfl fun l hl => ?_
    have hne : l ≠ k := fun heq => hk (heq ▸ hl)
    rw [Finmap.lookup_insert_of_ne m hne]
  rw [total, keys_insert, Finset.sum_insert hk, hrest, Finmap.lookup_insert, Nat.add_comm]
  rfl

theorem total_insert_of_extent {m : Finmap fun _ : κ => β} {k : κ} {a b : β}
    (h : m.lookup k = some a) (hextent : extent b = extent a) :
    total extent (m.insert k b) = total extent m := by
  rw [total, keys_insert_of_mem h]
  refine Finset.sum_congr rfl fun l _ => ?_
  by_cases hl : l = k
  · subst hl
    rw [Finmap.lookup_insert, h]
    exact hextent
  · rw [Finmap.lookup_insert_of_ne m hl]

theorem Packed.empty : Packed start extent (∅ : Finmap fun _ : κ => β) 0 where
  cursor_eq := total_empty.symm
  inside h := by simp at h
  disjoint h := by simp at h

/-- Allocation at the cursor. -/
theorem Packed.insert_top {m : Finmap fun _ : κ => β} {cursor : Nat} {k : κ} {b : β}
    (hm : Packed start extent m cursor) (hk : k ∉ m) (hb : start b = cursor) :
    Packed start extent (m.insert k b) (cursor + extent b) where
  cursor_eq := by rw [total_insert_of_notMem b hk, ← hm.cursor_eq]
  inside h := by
    obtain ⟨-, rfl⟩ | ⟨-, h⟩ := lookup_insert_eq_some h
    · rw [hb]
    · exact Nat.le_trans (hm.inside h) (Nat.le_add_right _ _)
  disjoint ha hc hne := by
    obtain ⟨rfl, rfl⟩ | ⟨-, ha'⟩ := lookup_insert_eq_some ha
    · obtain ⟨rfl, -⟩ | ⟨-, hc'⟩ := lookup_insert_eq_some hc
      · exact absurd rfl hne
      · exact .inr (hb ▸ hm.inside hc')
    · obtain ⟨-, rfl⟩ | ⟨-, hc'⟩ := lookup_insert_eq_some hc
      · exact .inl (hb ▸ hm.inside ha')
      · exact hm.disjoint ha' hc' hne

/-- Replacement of a block by one that occupies the same place. -/
theorem Packed.insert_same {m : Finmap fun _ : κ => β} {cursor : Nat} {k : κ} {a b : β}
    (hm : Packed start extent m cursor) (hk : m.lookup k = some a) (hstart : start b = start a)
    (hextent : extent b = extent a) : Packed start extent (m.insert k b) cursor where
  cursor_eq := by rw [total_insert_of_extent hk hextent, ← hm.cursor_eq]
  inside h := by
    obtain ⟨-, rfl⟩ | ⟨-, h⟩ := lookup_insert_eq_some h
    · rw [hstart, hextent]
      exact hm.inside hk
    · exact hm.inside h
  disjoint hc hd hne := by
    obtain ⟨rfl, rfl⟩ | ⟨-, hc'⟩ := lookup_insert_eq_some hc
    · obtain ⟨rfl, -⟩ | ⟨-, hd'⟩ := lookup_insert_eq_some hd
      · exact absurd rfl hne
      · rw [hstart, hextent]
        exact hm.disjoint hk hd' hne
    · obtain ⟨rfl, rfl⟩ | ⟨-, hd'⟩ := lookup_insert_eq_some hd
      · rw [hstart, hextent]
        exact hm.disjoint hc' hk hne
      · exact hm.disjoint hc' hd' hne

end BumpLayout
