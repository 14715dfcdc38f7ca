import DataMgr.Matrix.Consistency

/-! # Levels in broadcasts

A broadcast carries a level and store bits for each type in one word. A given level that is
behind the last one is cut off altogether, not raised to it.
-/

namespace DataMgr.Matrix

open DataMgr.Foundation MatrixState

theorem high_merge (highPart lowPart : Word) : high (merge highPart lowPart) = high highPart := by
  apply BitVec.eq_of_getLsbD_eq
  intro i _
  simp only [merge, getLsbD_high, BitVec.getLsbD_or, getLsbD_low]
  by_cases h4 : 4 ≤ i
  · simp [h4]
  · simp [h4]

theorem low_merge (highPart lowPart : Word) : low (merge highPart lowPart) = low lowPart := by
  apply BitVec.eq_of_getLsbD_eq
  intro i _
  simp only [merge, getLsbD_high, BitVec.getLsbD_or, getLsbD_low]
  by_cases h4 : i < 4
  · simp [h4]
  · simp [h4]

theorem high_low (word : Word) : high (low word) = 0#16 := by
  apply BitVec.eq_of_getLsbD_eq
  intro i _
  rw [getLsbD_high, getLsbD_low, BitVec.getLsbD_zero]
  by_cases h4 : 4 ≤ i
  · simp
  · simp [h4]

/-- The given level is older than the last one, and neither is missing. -/
def Behind (given last : Word) : Prop :=
  high given ≠ invalidHigh ∧ high last ≠ invalidHigh ∧ high given < high last

instance (given last : Word) : Decidable (Behind given last) :=
  inferInstanceAs (Decidable (_ ∧ _))

/-- The posted word has the stores of the last one and the larger of the two levels. -/
def KeepsLast (given last posted : Word) : Prop :=
  low posted ||| low last = low posted ∧
    (high given ≠ invalidHigh → high last ≠ invalidHigh →
      (high posted).toNat = max (high given).toNat (high last).toNat)

theorem broadcastNext_eq (given last : Word) :
    broadcastNext given last = if Behind given last then low last else merge given last := by
  have hword : resetMask given ||| low last = merge given last := rfl
  have hcut : merge given last &&& 0x000F#16 = low last := low_merge given last
  unfold broadcastNext
  simp only [hword, hcut, high_merge, high_low, BitVec.or_zero]
  by_cases hbehind : Behind given last
  · rw [if_pos hbehind]
    exact if_pos hbehind
  · rw [if_neg hbehind]
    exact if_neg hbehind

theorem keepsLast_iff (given last : Word) :
    KeepsLast given last (broadcastNext given last) ↔ ¬ Behind given last := by
  rw [broadcastNext_eq]
  split
  · rename_i hbehind
    refine iff_of_false (fun hkeeps => ?_) (not_not_intro hbehind)
    have hlevel := hkeeps.2 hbehind.1 hbehind.2.1
    have hlt : (high given).toNat < (high last).toNat := hbehind.2.2
    rw [high_low, BitVec.toNat_zero] at hlevel
    omega
  · rename_i hbehind
    refine iff_of_true ⟨?_, fun hgiven hlast => ?_⟩ hbehind
    · rw [low_merge, BitVec.or_self]
    · have hle : ¬ (high given).toNat < (high last).toNat :=
        fun hlt => hbehind ⟨hgiven, hlast, hlt⟩
      rw [high_merge]
      omega

/-- A broadcast keeps the stores and the larger level of each type exactly if neither of its
levels is behind the last one. -/
theorem broadcast_keeps_last_iff (s : MatrixState) (dataLevel : DataLevel)
    (hvalid : s.lasts.isValid = true) :
    ∃ matrix, (s.broadcast dataLevel).posted = matrix :: s.posted ∧
      (s.broadcast dataLevel).lasts = matrix ∧
      (KeepsLast dataLevel.dynamic s.lasts.dynamic matrix.dynamic ∧
          KeepsLast dataLevel.statics s.lasts.statics matrix.statics ↔
        ¬ Behind dataLevel.dynamic s.lasts.dynamic ∧
          ¬ Behind dataLevel.statics s.lasts.statics) := by
  unfold MatrixState.broadcast
  rw [if_neg (by simp [hvalid])]
  exact ⟨_, rfl, rfl, and_congr (keepsLast_iff _ _) (keepsLast_iff _ _)⟩

def sentLast (lasts : DataLevel) : MatrixState :=
  { MatrixState.init (fun _ => none) (fun _ => none) (fun _ => none) with lasts := lasts }

theorem broadcast_keeps_last_ahead :
    ∃ matrix, ((sentLast { dynamic := 0x0021#16 }).broadcast { dynamic := 0x0030#16 }).posted =
        [matrix] ∧ KeepsLast 0x0030#16 0x0021#16 matrix.dynamic := by
  obtain ⟨matrix, hposted, -, hiff⟩ := broadcast_keeps_last_iff
    (sentLast { dynamic := 0x0021#16 }) { dynamic := 0x0030#16 } (by decide)
  exact ⟨matrix, hposted, (hiff.mpr (by decide)).1⟩

/-- An older level is sent as level zero. -/
theorem broadcast_sends_level_zero :
    ((sentLast { dynamic := 0x0021#16 }).broadcast { dynamic := 0x0010#16 }).posted.map
        DataLevel.dynamic = [0x0001#16] ∧
      ¬ KeepsLast 0x0010#16 0x0021#16 0x0001#16 := by
  refine ⟨by decide, fun hkeeps => ?_⟩
  exact absurd (hkeeps.2 (by decide) (by decide)) (by decide)

end DataMgr.Matrix
