import Arale.Net.Buffer

/-!
# Taking back what was written

`unwrite` is the counterpart of `hasWritten`, and moves the write index the same way. So it
takes nothing back: with `unwrite(0)` aside, there are more readable bytes after it than
before, as far as the vector goes.
-/

namespace Unwrite

open Arale Buffer Memory

/-- `append(x)` and then `unwrite` of its length leave the content as it was. -/
def Undone (b : Buffer) (x : List UInt8) : Prop :=
  ∃ appended undone, b.append x = .ok appended ∧ appended.unwrite x.length = .ok undone ∧
    undone.readable = b.readable

/-- `unwrite(len)` removes the last `len` readable bytes and keeps the indices in order. -/
def Removed (b : Buffer) (len : Nat) : Prop :=
  ∃ b', b.unwrite len = .ok b' ∧ b'.Wf ∧
    b'.readable = b.readable.take (b.readableBytes - len)

theorem unwrite_eq {b : Buffer} {len : Nat} (admitted : len < b.readableBytes) :
    b.unwrite len = .ok { b with writeIndex := b.writeIndex + len } := by
  rw [unwrite, bind_eq_ok]
  exact ⟨(), check_eq_ok.mpr admitted, rfl⟩

theorem length_readable_eq (b : Buffer) :
    b.readable.length = min b.writeIndex b.buffer.length - b.readIndex := by
  simp [readable, slice]

/-- An `unwrite` never makes the readable part shorter. -/
theorem length_unwritten {b : Buffer} (wf : b.Wf) (len : Nat) :
    b.readableBytes ≤ (readable { b with writeIndex := b.writeIndex + len }).length := by
  have ordered := wf.ordered
  have inside := wf.inside
  rw [length_readable_eq]
  simp only [readableBytes]
  omega

theorem removed_iff {b : Buffer} (wf : b.Wf) {len : Nat} (admitted : len < b.readableBytes) :
    Removed b len ↔ len = 0 := by
  have filled := length_readable wf
  rw [Removed, unwrite_eq admitted]
  constructor
  · rintro ⟨b', done, -, content⟩
    cases done
    have longer := length_unwritten wf len
    rw [content, List.length_take, filled] at longer
    omega
  · rintro rfl
    refine ⟨b, rfl, wf, ?_⟩
    rw [Nat.sub_zero, ← filled, List.take_length]

theorem undone_iff {b : Buffer} (wf : b.Wf) (nonempty : b.readable ≠ []) {x : List UInt8}
    (fits : x.length ≤ b.writableBytes) : Undone b x ↔ x = [] := by
  have ordered := wf.ordered
  have inside := wf.inside
  have filled := length_readable wf
  have positive := List.length_pos_iff.mpr nonempty
  obtain ⟨mem, done, size, content⟩ := append_in_place wf fits
  simp only [writableBytes] at fits
  have appendedWf : Wf ⟨mem, b.readIndex, b.writeIndex + x.length⟩ := by
    constructor
    · simp only
      omega
    · simp only
      omega
  have admitted : x.length < readableBytes ⟨mem, b.readIndex, b.writeIndex + x.length⟩ := by
    rw [← length_readable appendedWf, content, List.length_append]
    omega
  rw [Undone, done]
  constructor
  · rintro ⟨appended, undone, first, second, same⟩
    cases first
    rw [unwrite_eq admitted] at second
    cases second
    have longer := length_unwritten appendedWf x.length
    rw [same, ← length_readable appendedWf, content, List.length_append] at longer
    exact List.eq_nil_of_length_eq_zero (by omega)
  · rintro rfl
    refine ⟨_, _, rfl, unwrite_eq admitted, ?_⟩
    rw [List.append_nil] at content
    exact content

/-- `unwrite` undoes an `append` of nothing and removes no bytes when asked to, and does so
in no other case. -/
theorem unwrite_undoes_iff {b : Buffer} (wf : b.Wf) (nonempty : b.readable ≠ []) :
    (∀ x : List UInt8, x.length ≤ b.writableBytes → (Undone b x ↔ x = [])) ∧
      ∀ len, len < b.readableBytes → (Removed b len ↔ len = 0) := by
  constructor
  · intro x fits
    exact undone_iff wf nonempty fits
  · intro len admitted
    exact removed_iff wf admitted

/-- Two bytes written, one taken back, and a byte that nobody wrote is read. -/
theorem unwrite_exposes_unwritten :
    Wf ⟨[1, 2, 9, 9], 0, 2⟩ ∧ readable ⟨[1, 2, 9, 9], 0, 2⟩ = [1, 2] ∧
      unwrite ⟨[1, 2, 9, 9], 0, 2⟩ 1 = .ok ⟨[1, 2, 9, 9], 0, 3⟩ ∧
      readable ⟨[1, 2, 9, 9], 0, 3⟩ = [1, 2, 9] ∧
      ¬ Removed ⟨[1, 2, 9, 9], 0, 2⟩ 1 ∧ ¬ Undone ⟨[1, 2, 9, 9], 0, 2⟩ [3] := by
  have wf : Wf ⟨[1, 2, 9, 9], 0, 2⟩ := ⟨by decide, by decide⟩
  refine ⟨wf, by decide, rfl, by decide, ?_, ?_⟩
  · intro removed
    exact absurd ((removed_iff wf (by decide)).mp removed) (by decide)
  · intro undone
    exact absurd ((undone_iff wf (by decide) (by decide)).mp undone) (by decide)

theorem unwrite_undoes_nothing :
    (Undone ⟨[1, 2, 9, 9], 0, 2⟩ [3] ↔ ([3] : List UInt8) = []) ∧
      (Removed ⟨[1, 2, 9, 9], 0, 2⟩ 1 ↔ 1 = 0) := by
  have wf : Wf ⟨[1, 2, 9, 9], 0, 2⟩ := ⟨by decide, by decide⟩
  have undoes := unwrite_undoes_iff wf (by decide)
  exact ⟨undoes.1 [3] (by decide), undoes.2 1 (by decide)⟩

end Unwrite
