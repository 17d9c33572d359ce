import Mathlib.Data.List.GetD
import Mathlib.Data.List.Nodup
import OnlineProgram.CMemory

/-!
# Runs of writes

A run of writes at known places changes a buffer where it touches it and leaves
the rest alone.  So what a buffer holds afterwards is known up to the bytes that
no write has touched, and the sum of a part of it up to the sum of these bytes.
-/

namespace OnlineProgram.CMemory

open ByteStrings

/-- Bytes with the offsets at which they are written, in order. -/
abbrev Writes := List (Nat × Bytes)

/-- The buffer after the writes. -/
def replay (writes : Writes) (memory : Bytes) : Bytes :=
  writes.foldl (fun written write => splice written write.1 write.2) memory

namespace Writes

/-- Every write is inside a buffer of this length. -/
def Fit (writes : Writes) (length : Nat) : Prop :=
  ∀ write ∈ writes, write.1 + write.2.length ≤ length

/-- Some write covers the offset. -/
def Touch (writes : Writes) (index : Nat) : Prop :=
  ∃ write ∈ writes, write.1 ≤ index ∧ index < write.1 + write.2.length

instance (writes : Writes) (length : Nat) : Decidable (writes.Fit length) :=
  inferInstanceAs (Decidable (∀ write ∈ writes, _))

instance (writes : Writes) (index : Nat) : Decidable (writes.Touch index) :=
  inferInstanceAs (Decidable (∃ write ∈ writes, _))

/-- The offsets below `count` that no write covers. -/
def untouched (writes : Writes) (count : Nat) : List Nat :=
  (List.range count).filter fun index => ¬ writes.Touch index

theorem mem_untouched {writes : Writes} {count index : Nat} :
    index ∈ writes.untouched count ↔ index < count ∧ ¬ writes.Touch index := by
  simp [untouched]

theorem untouched_nodup (writes : Writes) (count : Nat) : (writes.untouched count).Nodup :=
  List.nodup_range.filter _

end Writes

theorem fit_cons {write : Nat × Bytes} {writes : Writes} {length : Nat} :
    Writes.Fit (write :: writes) length ↔
      write.1 + write.2.length ≤ length ∧ Writes.Fit writes length := by
  simp [Writes.Fit]

theorem fit_append {first second : Writes} {length : Nat} :
    Writes.Fit (first ++ second) length ↔
      Writes.Fit first length ∧ Writes.Fit second length := by
  unfold Writes.Fit
  exact List.forall_mem_append

theorem replay_append (first second : Writes) (memory : Bytes) :
    replay (first ++ second) memory = replay second (replay first memory) :=
  List.foldl_append

theorem replay_length {writes : Writes} {memory : Bytes} (fit : writes.Fit memory.length) :
    (replay writes memory).length = memory.length := by
  induction writes generalizing memory with
  | nil => rfl
  | cons write writes ih =>
      obtain ⟨fits, restFit⟩ := fit_cons.mp fit
      have length := splice_length fits
      have rest : (replay writes (splice memory write.1 write.2)).length =
          (splice memory write.1 write.2).length :=
        ih (by rw [length]; exact restFit)
      exact rest.trans length

theorem replay_untouched {writes : Writes} {memory : Bytes} {index : Nat}
    (fit : writes.Fit memory.length) (untouched : ¬ writes.Touch index) :
    (replay writes memory)[index]? = memory[index]? := by
  induction writes generalizing memory with
  | nil => rfl
  | cons write writes ih =>
      obtain ⟨fits, restFit⟩ := fit_cons.mp fit
      have length := splice_length fits
      have restUntouched : ¬ Writes.Touch writes index := fun ⟨other, member, covers⟩ =>
        untouched ⟨other, by simp [member], covers⟩
      have outside : ¬ (write.1 ≤ index ∧ index < write.1 + write.2.length) := fun covers =>
        untouched ⟨write, by simp, covers⟩
      have rest : (replay writes (splice memory write.1 write.2))[index]? =
          (splice memory write.1 write.2)[index]? :=
        ih (by rw [length]; exact restFit) restUntouched
      rw [splice_getElem? index fits, if_neg outside] at rest
      exact rest

/-- What is touched does not depend on what the buffer held before. -/
theorem replay_touched {writes : Writes} {first second : Bytes} {index : Nat}
    (sameLength : first.length = second.length) (fit : writes.Fit first.length)
    (touched : writes.Touch index) :
    (replay writes first)[index]? = (replay writes second)[index]? := by
  induction writes generalizing first second with
  | nil => exact absurd touched (by simp [Writes.Touch])
  | cons write writes ih =>
      obtain ⟨fits, restFit⟩ := fit_cons.mp fit
      have firstLength := splice_length fits
      have secondFits : write.1 + write.2.length ≤ second.length := sameLength ▸ fits
      have secondLength := splice_length secondFits
      by_cases later : Writes.Touch writes index
      · exact ih (by rw [firstLength, secondLength, sameLength])
          (by rw [firstLength]; exact restFit) later
      · have covers : write.1 ≤ index ∧ index < write.1 + write.2.length := by
          obtain ⟨other, member, covers⟩ := touched
          rcases List.mem_cons.mp member with rfl | inRest
          · exact covers
          · exact absurd ⟨other, inRest, covers⟩ later
        have firstRest : (replay writes (splice first write.1 write.2))[index]? =
            (splice first write.1 write.2)[index]? :=
          replay_untouched (by rw [firstLength]; exact restFit) later
        have secondRest : (replay writes (splice second write.1 write.2))[index]? =
            (splice second write.1 write.2)[index]? :=
          replay_untouched (by rw [secondLength, ← sameLength]; exact restFit) later
        rw [splice_getElem? index fits, if_pos covers] at firstRest
        rw [splice_getElem? index secondFits, if_pos covers] at secondRest
        exact firstRest.trans secondRest.symm

section Kept

variable {writes : Writes} {memory first second : Bytes} {count : Nat}

/-- The bytes below `count` that the writes leave as they were. -/
def Writes.kept (writes : Writes) (count : Nat) (memory : Bytes) : Bytes :=
  (writes.untouched count).map fun index => memory.getD index 0

@[simp]
theorem Writes.kept_length (writes : Writes) (count : Nat) (memory : Bytes) :
    (writes.kept count memory).length = (writes.untouched count).length := by
  simp [Writes.kept]

theorem Writes.untouched_succ (writes : Writes) (count : Nat) :
    writes.untouched (count + 1) =
      writes.untouched count ++ if writes.Touch count then [] else [count] := by
  unfold Writes.untouched
  rw [List.range_succ, List.filter_append]
  by_cases touched : writes.Touch count <;> simp [touched]

theorem byteSum_take_succ (bytes : Bytes) (count : Nat) :
    byteSum (bytes.take (count + 1)) =
      byteSum (bytes.take count) + (bytes.getD count 0).toNat := by
  rw [List.take_add_one, byteSum_append, List.getD_eq_getElem?_getD]
  cases bytes[count]? <;> simp [byteSum]

/-- The sum of a buffer after the writes is that of the written bytes and of the
bytes that were left alone. -/
theorem byteSum_replay (fit : writes.Fit memory.length) (count : Nat) :
    byteSum ((replay writes memory).take count) =
      byteSum ((replay writes (List.replicate memory.length 0)).take count) +
        byteSum (writes.kept count memory) := by
  have zerosLength : memory.length = (List.replicate memory.length (0 : UInt8)).length := by simp
  induction count with
  | zero => simp [Writes.kept, Writes.untouched, byteSum]
  | succ count ih =>
      rw [byteSum_take_succ, byteSum_take_succ, ih]
      unfold Writes.kept
      rw [writes.untouched_succ, List.map_append, byteSum_append]
      by_cases touched : writes.Touch count
      · have same := replay_touched zerosLength fit touched
        rw [List.getD_eq_getElem?_getD, same, ← List.getD_eq_getElem?_getD, if_pos touched]
        simp only [List.map_nil, byteSum, List.sum_nil]
        omega
      · have left := replay_untouched fit touched
        have zero : (replay writes (List.replicate memory.length 0))[count]? =
            (List.replicate memory.length 0)[count]? :=
          replay_untouched (zerosLength ▸ fit) touched
        have nothing :
            ((replay writes (List.replicate memory.length 0)).getD count 0).toNat = 0 := by
          rw [List.getD_eq_getElem?_getD, zero, List.getElem?_getD_replicate_default_eq]
          rfl
        rw [List.getD_eq_getElem?_getD, left, ← List.getD_eq_getElem?_getD, if_neg touched,
          nothing]
        simp only [List.map_cons, List.map_nil, byteSum, List.sum_cons, List.sum_nil]
        omega

/-- Two buffers agree after the writes where they agreed on what is left
alone. -/
theorem replay_take_eq_iff (sameLength : first.length = second.length)
    (fit : writes.Fit first.length) :
    (replay writes first).take count = (replay writes second).take count ↔
      writes.kept count first = writes.kept count second := by
  have secondFit : writes.Fit second.length := sameLength ▸ fit
  constructor
  · intro same
    unfold Writes.kept
    refine List.map_congr_left fun index member => ?_
    obtain ⟨below, untouched⟩ := Writes.mem_untouched.mp member
    have taken := congrArg (·[index]?) same
    simp only [List.getElem?_take_of_lt below, replay_untouched fit untouched,
      replay_untouched secondFit untouched] at taken
    rw [List.getD_eq_getElem?_getD, List.getD_eq_getElem?_getD, taken]
  · intro same
    refine List.ext_getElem? fun index => ?_
    rcases Nat.lt_or_ge index count with below | beyond
    · rw [List.getElem?_take_of_lt below, List.getElem?_take_of_lt below]
      by_cases touched : writes.Touch index
      · exact replay_touched sameLength fit touched
      · have kept := List.map_inj_left.mp same index
          (Writes.mem_untouched.mpr ⟨below, touched⟩)
        rw [replay_untouched fit touched, replay_untouched secondFit touched]
        rcases Nat.lt_or_ge index first.length with inside | outside
        · rw [List.getD_eq_getElem _ _ inside,
            List.getD_eq_getElem _ _ (sameLength ▸ inside)] at kept
          rw [List.getElem?_eq_getElem inside, List.getElem?_eq_getElem (sameLength ▸ inside),
            kept]
        · rw [List.getElem?_eq_none outside, List.getElem?_eq_none (sameLength ▸ outside)]
    · rw [List.getElem?_take_eq_none beyond, List.getElem?_take_eq_none beyond]

/-- What is left alone can be anything. -/
theorem exists_kept {values : Bytes} {length : Nat} (inside : count ≤ length)
    (enough : values.length = (writes.untouched count).length) :
    ∃ memory : Bytes, memory.length = length ∧ writes.kept count memory = values := by
  refine ⟨(List.range length).map fun index =>
    values.getD ((writes.untouched count).idxOf index) 0, by simp, ?_⟩
  unfold Writes.kept
  refine List.ext_getElem (by simp [enough]) fun place below _ => ?_
  have placeBelow : place < (writes.untouched count).length := by simpa using below
  have member := List.getElem_mem placeBelow
  have indexBelow := (Writes.mem_untouched.mp member).1
  rw [List.getElem_map, List.getD_eq_getElem _ _ (by simp; omega), List.getElem_map,
    List.getElem_range, List.Nodup.idxOf_getElem (writes.untouched_nodup count),
    List.getD_eq_getElem]

end Kept

end OnlineProgram.CMemory
