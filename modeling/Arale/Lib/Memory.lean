import Mathlib.Data.List.Basic

/-!
# A block of memory with bounds

A block is a list of cells. `slice` reads the cells between two indices, `store`
writes consecutive cells and fails when one of them would lie outside the block,
`resize` is that of a growable array. The lemmas say what a slice is after a
store that ends, or starts, where the slice does.
-/

namespace Memory

universe u
variable {α : Type u}

def slice (mem : List α) (lo hi : Nat) : List α := (mem.take hi).drop lo

def store (mem : List α) (pos : Nat) (data : List α) : Option (List α) :=
  if pos + data.length ≤ mem.length then
    some (mem.take pos ++ data ++ mem.drop (pos + data.length))
  else none

def resize (mem : List α) (size : Nat) (fill : α) : List α :=
  mem.take size ++ List.replicate (size - mem.length) fill

theorem store_eq_some {mem mem' : List α} {pos : Nat} {data : List α} :
    store mem pos data = some mem' ↔ pos + data.length ≤ mem.length ∧
      mem' = mem.take pos ++ data ++ mem.drop (pos + data.length) := by
  rw [store]
  split
  · rename_i fits
    simp [fits, eq_comm]
  · rename_i outside
    simp [outside]

theorem store_isSome (mem : List α) (pos : Nat) (data : List α)
    (fits : pos + data.length ≤ mem.length) : ∃ mem', store mem pos data = some mem' :=
  ⟨_, store_eq_some.mpr ⟨fits, rfl⟩⟩

theorem length_store {mem mem' : List α} {pos : Nat} {data : List α}
    (h : store mem pos data = some mem') : mem'.length = mem.length := by
  obtain ⟨fits, rfl⟩ := store_eq_some.mp h
  simp only [List.length_append, List.length_take, List.length_drop]
  omega

theorem length_resize (mem : List α) (size : Nat) (fill : α) :
    (resize mem size fill).length = size := by
  simp only [resize, List.length_append, List.length_take, List.length_replicate]
  omega

theorem length_slice {mem : List α} {lo hi : Nat} (inside : hi ≤ mem.length) :
    (slice mem lo hi).length = hi - lo := by
  simp [slice, Nat.min_eq_left inside]

@[simp] theorem slice_empty (mem : List α) (i : Nat) : slice mem i i = [] := by
  simp [slice]

theorem drop_slice (mem : List α) (lo hi n : Nat) :
    (slice mem lo hi).drop n = slice mem (lo + n) hi := by
  simp [slice, List.drop_drop]

/-- A store that begins where the slice ends extends the slice by the data. -/
theorem slice_store_back {mem mem' : List α} {pos lo : Nat} {data : List α}
    (h : store mem pos data = some mem') (before : lo ≤ pos) :
    slice mem' lo (pos + data.length) = slice mem lo pos ++ data := by
  obtain ⟨fits, rfl⟩ := store_eq_some.mp h
  have len : (mem.take pos).length = pos := by
    rw [List.length_take]
    omega
  have kept : (mem.take pos ++ data ++ mem.drop (pos + data.length)).take (pos + data.length) =
      mem.take pos ++ data := by
    apply List.take_left'
    rw [List.length_append, len]
  rw [slice, kept, List.drop_append_of_le_length (by omega), slice]

/-- A store that ends where the slice begins puts the data in front of it. -/
theorem slice_store_front {mem mem' : List α} {pos hi : Nat} {data : List α}
    (h : store mem pos data = some mem') (after : pos + data.length ≤ hi) :
    slice mem' pos hi = data ++ slice mem (pos + data.length) hi := by
  obtain ⟨fits, rfl⟩ := store_eq_some.mp h
  have len : (mem.take pos).length = pos := by
    rw [List.length_take]
    omega
  obtain ⟨n, rfl⟩ : ∃ n, hi = pos + data.length + n := ⟨hi - (pos + data.length), by omega⟩
  have whole : pos + data.length + n = (mem.take pos ++ data).length + n := by
    rw [List.length_append, len]
  rw [slice, whole, List.take_length_add_append, List.append_assoc,
    List.drop_append_of_le_length (by omega), List.drop_of_length_le (by omega),
    List.nil_append, ← whole, slice, List.drop_take]
  congr 1
  rw [show pos + data.length + n - (pos + data.length) = n by omega]

theorem slice_resize {mem : List α} {lo hi size : Nat} (fill : α) (inside : hi ≤ mem.length)
    (fits : hi ≤ size) : slice (resize mem size fill) lo hi = slice mem lo hi := by
  have kept : (mem.take size ++ List.replicate (size - mem.length) fill).take hi =
      mem.take hi := by
    rw [List.take_append_of_le_length (by rw [List.length_take]; omega), List.take_take,
      Nat.min_eq_left fits]
  rw [slice, resize, kept, slice]

/-! ## Stores one after the other -/

/-- Storing data in two parts, the second right behind the first. -/
theorem store_append (mem : List α) (pos : Nat) (xs ys : List α) :
    store mem pos (xs ++ ys) =
      (store mem pos xs).bind fun mem' => store mem' (pos + xs.length) ys := by
  by_cases first : pos + xs.length ≤ mem.length
  · obtain ⟨mem', stored⟩ := store_isSome mem pos xs first
    have size := length_store stored
    rw [stored, Option.bind_some]
    obtain ⟨-, whole⟩ := store_eq_some.mp stored
    have front : (mem.take pos ++ xs).length = pos + xs.length := by
      rw [List.length_append, List.length_take]
      omega
    have before : mem'.take (pos + xs.length) = mem.take pos ++ xs := by
      rw [whole, ← front, List.take_left]
    have after : mem'.drop (pos + xs.length + ys.length) =
        mem.drop (pos + xs.length + ys.length) := by
      rw [whole, ← List.drop_drop, ← front, List.drop_left, front, List.drop_drop]
    rw [store, store, size, before, after, List.length_append, Nat.add_assoc]
    split
    · simp only [List.append_assoc]
    · rfl
  · have outside : store mem pos xs = none := if_neg first
    rw [outside, Option.bind_none]
    apply if_neg
    rw [List.length_append]
    omega

/-- Other data of the same length, stored over the beginning of what has been stored. -/
theorem store_replace {mem mem' : List α} {pos : Nat} {xs ys zs : List α}
    (h : store mem pos (xs ++ zs) = some mem') (same : xs.length = ys.length) :
    store mem' pos ys = store mem pos (ys ++ zs) := by
  obtain ⟨fits, rfl⟩ := store_eq_some.mp h
  have size := length_store h
  rw [List.length_append] at fits
  have front : (mem.take pos).length = pos := by
    rw [List.length_take]
    omega
  have before : (mem.take pos ++ (xs ++ zs) ++ mem.drop (pos + (xs ++ zs).length)).take pos =
      mem.take pos := by
    rw [List.append_assoc]
    exact List.take_left' front
  have after : (mem.take pos ++ (xs ++ zs) ++ mem.drop (pos + (xs ++ zs).length)).drop
      (pos + ys.length) = zs ++ mem.drop (pos + (ys ++ zs).length) := by
    have head : (mem.take pos ++ xs).length = pos + ys.length := by
      rw [List.length_append, front, same]
    rw [List.length_append, List.length_append, same, ← List.append_assoc,
      List.append_assoc (mem.take pos ++ xs)]
    exact List.drop_left' head
  have inside : pos + ys.length ≤
      (mem.take pos ++ (xs ++ zs) ++ mem.drop (pos + (xs ++ zs).length)).length := by
    rw [size]
    omega
  have inside' : pos + (ys ++ zs).length ≤ mem.length := by
    rw [List.length_append]
    omega
  rw [store, if_pos inside, store, if_pos inside', before, after]
  simp only [List.append_assoc]

/-- The block up to the end of the first part of what has been stored. -/
theorem take_store {mem mem' : List α} {pos : Nat} {xs ys : List α}
    (h : store mem pos (xs ++ ys) = some mem') :
    mem'.take (pos + xs.length) = mem.take pos ++ xs := by
  obtain ⟨fits, rfl⟩ := store_eq_some.mp h
  rw [List.length_append] at fits
  have front : (mem.take pos ++ xs).length = pos + xs.length := by
    rw [List.length_append, List.length_take]
    omega
  rw [← List.append_assoc, List.append_assoc (mem.take pos ++ xs)]
  exact List.take_left' front

end Memory
