import Addressing.Ip.ZeroRun
import Mathlib.Data.List.TakeWhile
import Mathlib.Tactic.Common

/-!
# The longest run of zeros

What the run that an address leaves out is, told by its place among the groups: the groups are
those ahead of it, its zeros, and those behind it; no run is longer, and none that is as long
begins before it. There is one such run, and `ZeroRun.longest` finds it
(`isFirstLongest_iff`).
-/

namespace Addressing.Ip.ZeroRun

variable {gs : List Group} {start length : Nat}

/-- So many groups from `start` on are zeros. -/
def IsRun (gs : List Group) (start length : Nat) : Prop :=
  ∃ ahead behind, ahead.length = start ∧ gs = ahead ++ List.replicate length 0 ++ behind

/-- A run that no other one is longer than, and the first of those. -/
structure IsFirstLongest (gs : List Group) (start length : Nat) : Prop where
  isRun : IsRun gs start length
  longest : ∀ i n, IsRun gs i n → n ≤ length
  first : ∀ i, IsRun gs i length → start ≤ i

/-- Groups begin with so many zeros exactly if these can be split off. -/
theorem le_leading_iff {n : Nat} : n ≤ leading gs ↔ ∃ rest, gs = List.replicate n 0 ++ rest := by
  constructor
  · intro h
    have hzeros : gs.takeWhile (· = 0) = List.replicate (leading gs) 0 :=
      List.eq_replicate_of_mem fun g hg => by simpa using List.mem_takeWhile_imp hg
    obtain ⟨k, hk⟩ := Nat.exists_eq_add_of_le h
    refine ⟨List.replicate k 0 ++ gs.dropWhile (· = 0), ?_⟩
    rw [← List.append_assoc, List.replicate_append_replicate, ← hk, ← hzeros,
      List.takeWhile_append_dropWhile]
  · rintro ⟨rest, rfl⟩
    have hzeros : ∀ g ∈ List.replicate n (0 : Group), decide (g = 0) = true := fun g hg => by
      simpa using List.eq_of_mem_replicate hg
    rw [leading, List.takeWhile_append_of_pos hzeros, List.length_append, List.length_replicate]
    exact Nat.le_add_right _ _

/-- A run at `start` is among the zeros that begin there. -/
theorem isRun_iff : IsRun gs start length ↔
    start ≤ gs.length ∧ length ≤ leading (gs.drop start) := by
  rw [le_leading_iff]
  constructor
  · rintro ⟨ahead, behind, rfl, rfl⟩
    refine ⟨by simp, behind, ?_⟩
    rw [List.append_assoc, List.drop_left]
  · rintro ⟨hle, rest, hrest⟩
    refine ⟨gs.take start, rest, List.length_take_of_le hle, ?_⟩
    rw [List.append_assoc, ← hrest, List.take_append_drop]

/-- A run ends within the groups. -/
theorem IsRun.add_le (h : IsRun gs start length) : start + length ≤ gs.length := by
  obtain ⟨ahead, behind, rfl, rfl⟩ := h
  rw [List.length_append, List.length_append, List.length_replicate]
  exact Nat.le_add_right _ _

/-- All groups of a run are zeros. -/
theorem IsRun.getElem?_eq {i : Nat} (h : IsRun gs start length) (hi : start ≤ i)
    (hi' : i < start + length) : gs[i]? = some 0 := by
  obtain ⟨ahead, behind, rfl, rfl⟩ := h
  have hlen : i - ahead.length < (List.replicate length (0 : Group)).length := by
    rw [List.length_replicate]
    omega
  rw [List.append_assoc, List.getElem?_append_right hi, List.getElem?_append_left hlen,
    List.getElem?_replicate_of_lt (by omega)]

/-- The groups are those ahead of a run, its zeros, and those behind it. -/
theorem IsRun.eq_append (h : IsRun gs start length) :
    gs = gs.take start ++ List.replicate length 0 ++ gs.drop (start + length) := by
  obtain ⟨ahead, behind, rfl, rfl⟩ := h
  have hahead : (ahead ++ List.replicate length 0 ++ behind).take ahead.length = ahead := by
    rw [List.append_assoc, List.take_left]
  have hlen : (ahead ++ List.replicate length (0 : Group)).length = ahead.length + length := by
    rw [List.length_append, List.length_replicate]
  rw [hahead, ← hlen, List.drop_left]

/-- The longest run starts within the groups. -/
theorem start_longest_le (gs : List Group) : (longest gs).start ≤ gs.length := by
  induction gs with
  | nil => exact Nat.le_refl _
  | cons g gs ih =>
    rw [longest]
    split_ifs
    · exact Nat.zero_le _
    · exact Nat.succ_le_succ ih

/-- As many zeros as the longest run has begin nowhere before it. -/
theorem start_longest_le_of_le (gs : List Group) {i : Nat}
    (h : (longest gs).length ≤ leading (gs.drop i)) : (longest gs).start ≤ i := by
  induction gs generalizing i with
  | nil => exact Nat.zero_le _
  | cons g gs ih =>
    rw [longest] at h ⊢
    split_ifs at h ⊢ with hle
    · exact Nat.zero_le _
    · cases i with
      | zero => exact absurd h hle
      | succ i => exact Nat.succ_le_succ (ih h)

theorem isFirstLongest_longest (gs : List Group) :
    IsFirstLongest gs (longest gs).start (longest gs).length where
  isRun := isRun_iff.2 ⟨start_longest_le gs, (longest_zeros gs).ge⟩
  longest i _ h := (isRun_iff.1 h).2.trans (longest_length_ge gs i)
  first _ h := start_longest_le_of_le gs (isRun_iff.1 h).2

/-- Zeros at the start are the run to leave out, if behind the group that ends them there are no
    more groups than they are. -/
theorem isFirstLongest_replicate {n : Nat} {g : Group} {rest : List Group} (hg : g ≠ 0)
    (hrest : rest.length ≤ n) : IsFirstLongest (List.replicate n 0 ++ g :: rest) 0 n where
  isRun := ⟨[], g :: rest, rfl, rfl⟩
  longest i k h := by
    have hadd := h.add_le
    rw [List.length_append, List.length_replicate, List.length_cons] at hadd
    -- No run goes across the group that ends the zeros.
    have hacross : ¬ (i ≤ n ∧ n < i + k) := fun ⟨hi, hi'⟩ => by
      have hzero := h.getElem?_eq hi hi'
      rw [List.getElem?_append_right (by simp)] at hzero
      simp [hg] at hzero
    omega
  first _ _ := Nat.zero_le _

/-- There is one run to leave out, and it is the one that is found. -/
theorem isFirstLongest_iff : IsFirstLongest gs start length ↔ longest gs = ⟨start, length⟩ := by
  constructor
  · intro h
    have h' := isFirstLongest_longest gs
    -- Neither run is longer than the other one, nor does it begin after it.
    have hlength : (longest gs).length = length :=
      (h.longest _ _ h'.isRun).antisymm (h'.longest _ _ h.isRun)
    have hstart : (longest gs).start = start :=
      (h'.first _ (hlength ▸ h.isRun)).antisymm (h.first _ (hlength ▸ h'.isRun))
    rw [← hstart, ← hlength]
  · intro h
    have h' := isFirstLongest_longest gs
    rwa [h] at h'

/-- So many zeros in a row are found somewhere exactly if the longest run has them. -/
theorem exists_isRun_iff {n : Nat} : (∃ i, IsRun gs i n) ↔ n ≤ (longest gs).length := by
  constructor
  · rintro ⟨i, h⟩
    exact (isFirstLongest_longest gs).longest i n h
  · intro h
    refine ⟨(longest gs).start, isRun_iff.2 ⟨start_longest_le gs, ?_⟩⟩
    rwa [longest_zeros]

end Addressing.Ip.ZeroRun
