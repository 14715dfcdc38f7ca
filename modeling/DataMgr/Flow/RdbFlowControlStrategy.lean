import DataMgr.Foundation.SlidingWindow
import DataMgr.Flow.FlowControlManager

/-! # The rate limit of `RdbFlowControlStrategy`

The strategy remembers the last execution times it gave out. The queue is a
suffix of the whole history; an entry leaves it when `limit_` later ones are
there, or when the clock has passed the end of its window, and in both cases it
no longer bounds the next answer. Times are 64-bit counts of nanoseconds, so this
holds while the windows end before the largest count.
-/

namespace DataMgr.Flow

open DataMgr.Foundation

structure RdbFlowControlStrategy where
  limit : UInt32
  duration : UInt32
  queue : List Tp
deriving DecidableEq, Repr

namespace RdbFlowControlStrategy

def create (limit duration : UInt32) : RdbFlowControlStrategy := ⟨limit, duration, []⟩

/-- `std::chrono::milliseconds(duration_)` in ticks of the clock. -/
def window (s : RdbFlowControlStrategy) : Nat := s.duration.toNat * 1000000

/-- `time + std::chrono::milliseconds(duration_)`, a sum of `int64_t`. -/
def windowEnd (s : RdbFlowControlStrategy) (time : Tp) : Tp := (time + s.window).bmod (2 ^ 64)

/-- The loop that pops the front while the queue is too long or its front too old. -/
def trim (limit : Nat) (windowEnd : Tp → Tp) (now : Tp) : List Tp → List Tp
  | [] => []
  | front :: rest =>
      if limit < (front :: rest).length ∨ windowEnd front < now then trim limit windowEnd now rest
      else front :: rest

def getExecuteTime (s : RdbFlowControlStrategy) (now : Tp) : Tp × RdbFlowControlStrategy :=
  if s.limit = 0 then (now, s)
  else
    let queue := trim s.limit.toNat s.windowEnd now s.queue
    let executeTime :=
      match queue with
      | front :: _ => if s.limit.toNat ≤ queue.length then max now (s.windowEnd front) else now
      | [] => now
    (executeTime, { s with queue := queue ++ [executeTime] })

instance (κ : Type*) : Strategy RdbFlowControlStrategy κ where
  getExecuteTime s now _ _ := s.getExecuteTime now

def executeTimes (s : RdbFlowControlStrategy) : List Tp → List Tp
  | [] => []
  | now :: rest => (s.getExecuteTime now).1 :: (s.getExecuteTime now).2.executeTimes rest

/-- `history` is everything the strategy has answered, the last time at `clock`.
`forgotten`: what left the queue has `limit_` successors or is out of date.
`ahead`: an answer ahead of the clock ends the window of the entry `limit_` places earlier.
`lower`, `upper`: an answer is at most one window ahead for each `limit_` entries before it. -/
structure Tracks (s : RdbFlowControlStrategy) (history : List Tp) (clock : Tp) : Prop where
  sorted : history.Pairwise (· ≤ ·)
  spaced : Spaced s.limit.toNat (s.window : Tp) history
  suffix : s.queue <:+ history
  forgotten : ∀ k a, k < history.length - s.queue.length → history[k]? = some a →
    k + s.limit.toNat < history.length ∨ a + s.window ≤ clock
  ahead : ∀ a ∈ history, a ≤ clock ∨
    ∃ k b, k + s.limit.toNat < history.length ∧ history[k]? = some b ∧ a ≤ b + s.window
  lower : ∀ a ∈ history, -2 ^ 63 ≤ a
  upper : ∀ k a, history[k]? = some a → a ≤ clock + ↑(k / s.limit.toNat * s.window)

theorem tracks_create (limit duration : UInt32) (clock : Tp) :
    (create limit duration).Tracks [] clock where
  sorted := List.Pairwise.nil
  spaced := Spaced.nil _ _
  suffix := List.suffix_refl _
  forgotten k a _ ha := by simp at ha
  ahead a ha := by simp at ha
  lower a ha := by simp at ha
  upper k a ha := by simp at ha

variable {now a clock : Tp} {history : List Tp} {s : RdbFlowControlStrategy}

section

variable {limit : Nat} {windowEnd : Tp → Tp} {queue : List Tp}

variable (now limit windowEnd queue) in
theorem trim_suffix : trim limit windowEnd now queue <:+ queue := by
  induction queue with
  | nil => exact List.suffix_refl _
  | cons front rest ih =>
      rw [trim]
      split
      · exact ih.trans (List.suffix_cons front rest)
      · exact List.suffix_refl _

variable (now limit windowEnd queue) in
theorem length_trim_le : (trim limit windowEnd now queue).length ≤ limit := by
  induction queue with
  | nil => exact Nat.zero_le _
  | cons front rest ih =>
      rw [trim]
      split
      · exact ih
      · rename_i hkept
        exact not_lt.mp fun hlong => hkept (.inl hlong)

theorem trim_forgotten {k : Nat}
    (hk : k < queue.length - (trim limit windowEnd now queue).length) (ha : queue[k]? = some a) :
    k + limit < queue.length ∨ windowEnd a < now := by
  induction queue generalizing k with
  | nil => simp at ha
  | cons front rest ih =>
      rw [trim] at hk
      split at hk
      · rename_i hpop
        cases k with
        | zero =>
            cases ha
            exact hpop.imp_left (by omega)
        | succ k =>
            rw [List.length_cons] at hk ⊢
            rcases ih (by omega) ha with h | h
            · exact .inl (by omega)
            · exact .inr h
      · omega

end

/-- The clock reads a time from which the windows of a history of this length end in range. -/
structure Fits (s : RdbFlowControlStrategy) (length : Nat) (now : Tp) : Prop where
  lower : -2 ^ 63 ≤ now
  upper : now + ↑((length / s.limit.toNat + 1) * s.window) < 2 ^ 63

theorem limit_pos (hlimit : s.limit ≠ 0) : 0 < s.limit.toNat :=
  Nat.pos_of_ne_zero fun h0 => hlimit (UInt32.toNat_inj.mp h0)

section

variable (h : s.Tracks history clock) (hnow : clock ≤ now) (hfits : s.Fits history.length now)

include h hnow hfits

theorem Tracks.windowEnd_eq (ha : a ∈ history) : s.windowEnd a = a + s.window := by
  obtain ⟨k, hk⟩ := List.mem_iff_getElem?.mp ha
  have hlt : k < history.length := (List.getElem?_eq_some_iff.mp hk).1
  have hupper := h.upper k a hk
  have hlower := h.lower a ha
  have hend := hfits.upper
  have hmono : k / s.limit.toNat * s.window ≤ history.length / s.limit.toNat * s.window :=
    Nat.mul_le_mul_right _ (Nat.div_le_div_right hlt.le)
  rw [Nat.add_mul, Nat.one_mul] at hend
  unfold Tp at *
  apply Int.bmod_eq_of_le <;> omega

/-- What left the queue before or during this call does not bound the answer. -/
theorem Tracks.forgotten_after_trim {k : Nat}
    (hk : k < history.length - (trim s.limit.toNat s.windowEnd now s.queue).length)
    (ha : history[k]? = some a) : k + s.limit.toNat < history.length ∨ a + s.window ≤ now := by
  obtain ⟨earlier, hsplit⟩ := h.suffix
  have hlength : history.length = earlier.length + s.queue.length := by
    rw [← hsplit, List.length_append]
  by_cases hold : k < history.length - s.queue.length
  · exact (h.forgotten k a hold ha).imp_right fun hle => hle.trans hnow
  have hend := h.windowEnd_eq hnow hfits (List.mem_of_getElem? ha)
  have hqueue : s.queue[k - earlier.length]? = some a := by
    rw [← hsplit, List.getElem?_append_right (by omega)] at ha
    exact ha
  have hpopped : k - earlier.length <
      s.queue.length - (trim s.limit.toNat s.windowEnd now s.queue).length := by omega
  rcases trim_forgotten hpopped hqueue with hlong | hpast
  · exact .inl (by omega)
  · rw [hend] at hpast
    exact .inr hpast.le

variable (hlimit : s.limit ≠ 0)

include hlimit

theorem Tracks.getExecuteTime_bounds :
    now ≤ (s.getExecuteTime now).1 ∧
      (∀ k a, k + s.limit.toNat = history.length → history[k]? = some a →
        a + s.window ≤ (s.getExecuteTime now).1) ∧
      ((s.getExecuteTime now).1 ≤ now ∨ ∃ k a, k + s.limit.toNat = history.length ∧
        history[k]? = some a ∧ (s.getExecuteTime now).1 ≤ a + s.window) := by
  have hforgotten := fun k a => h.forgotten_after_trim (k := k) (a := a) hnow hfits
  have hle := length_trim_le now s.limit.toNat s.windowEnd s.queue
  obtain ⟨earlier, hsplit⟩ := (trim_suffix now s.limit.toNat s.windowEnd s.queue).trans h.suffix
  rw [getExecuteTime, if_neg hlimit]
  generalize trim s.limit.toNat s.windowEnd now s.queue = queue at hforgotten hle hsplit ⊢
  have hlength : history.length = earlier.length + queue.length := by
    rw [← hsplit, List.length_append]
  have hshort : queue.length < s.limit.toNat → ∀ k a, k + s.limit.toNat = history.length →
      history[k]? = some a → a + s.window ≤ now := by
    intro hshort k a hk ha
    rcases hforgotten k a (by omega) ha with h | h
    · omega
    · exact h
  cases queue with
  | nil =>
      exact ⟨le_refl _, hshort (limit_pos hlimit), .inl (le_refl _)⟩
  | cons front rest =>
      have hfront : history[earlier.length]? = some front := by
        rw [← hsplit, List.getElem?_append_right (le_refl _), Nat.sub_self, List.getElem?_cons_zero]
      have hend := h.windowEnd_eq hnow hfits (List.mem_of_getElem? hfront)
      dsimp only
      rw [hend]
      split
      · refine ⟨le_max_left _ _, ?_, ?_⟩
        · intro k a hk ha
          have hkfront : k = earlier.length := by omega
          rw [hkfront, hfront] at ha
          cases ha
          exact le_max_right _ _
        · rcases le_total now (front + s.window) with hlate | hearly
          · rw [max_eq_right hlate]
            exact .inr ⟨earlier.length, front, by omega, hfront, le_refl _⟩
          · rw [max_eq_left hearly]
            exact .inl (le_refl _)
      · rename_i hroom
        exact ⟨le_refl _, hshort (not_le.mp hroom), .inl (le_refl _)⟩

theorem Tracks.le_getExecuteTime (ha : a ∈ history) : a ≤ (s.getExecuteTime now).1 := by
  obtain ⟨hclock, hwindow, -⟩ := h.getExecuteTime_bounds hnow hfits hlimit
  have hpos := limit_pos hlimit
  rcases h.ahead a ha with hle | ⟨k, b, hk, hb, hab⟩
  · exact hle.trans (hnow.trans hclock)
  have hlater : k < history.length - s.limit.toNat := by omega
  have hbound : history.length - s.limit.toNat < history.length := by omega
  obtain ⟨hklt, hbeq⟩ := List.getElem?_eq_some_iff.mp hb
  have hbc : b ≤ history[history.length - s.limit.toNat] := by
    rw [← hbeq]
    exact List.pairwise_iff_getElem.mp h.sorted _ _ hklt hbound hlater
  have hend := hwindow (history.length - s.limit.toNat) _ (by omega)
    (List.getElem?_eq_getElem hbound)
  linarith

theorem Tracks.getExecuteTime_upper :
    (s.getExecuteTime now).1 ≤ now + ↑(history.length / s.limit.toNat * s.window) := by
  have hpos := limit_pos hlimit
  rcases (h.getExecuteTime_bounds hnow hfits hlimit).2.2 with hle | ⟨k, a, hk, ha, hle⟩
  · linarith
  have hupper := h.upper k a ha
  rw [← hk, Nat.add_div_right k hpos, Nat.succ_mul, Nat.cast_add]
  linarith

theorem Tracks.getExecuteTime :
    (s.getExecuteTime now).2.Tracks (history ++ [(s.getExecuteTime now).1]) now := by
  obtain ⟨hclock, hwindow, hanswer⟩ := h.getExecuteTime_bounds hnow hfits hlimit
  have hlater : ∀ a ∈ history, a ≤ (s.getExecuteTime now).1 :=
    fun a ha => h.le_getExecuteTime hnow hfits hlimit ha
  have hupper := h.getExecuteTime_upper hnow hfits hlimit
  have hforgotten := fun k a => h.forgotten_after_trim (k := k) (a := a) hnow hfits
  have hsuffix := (trim_suffix now s.limit.toNat s.windowEnd s.queue).trans h.suffix
  have hpos := limit_pos hlimit
  have hafter : (s.getExecuteTime now).2 =
      ⟨s.limit, s.duration,
        trim s.limit.toNat s.windowEnd now s.queue ++ [(s.getExecuteTime now).1]⟩ := by
    rw [RdbFlowControlStrategy.getExecuteTime, if_neg hlimit]
  rw [hafter]
  constructor
  case sorted =>
    rw [List.pairwise_append]
    refine ⟨h.sorted, List.pairwise_singleton _ _, ?_⟩
    intro a ha b hb
    rw [List.mem_singleton.mp hb]
    exact hlater a ha
  case spaced => exact h.spaced.concat hpos hwindow
  case suffix =>
    obtain ⟨earlier, hsplit⟩ := hsuffix
    exact ⟨earlier, by rw [← hsplit, List.append_assoc]⟩
  case forgotten =>
    intro k a hk ha
    simp only [List.length_append, List.length_singleton] at hk ⊢
    rw [List.getElem?_append_left (by omega)] at ha
    rcases hforgotten k a (by omega) ha with hold | hpast
    · exact .inl (by omega)
    · exact .inr hpast
  case ahead =>
    intro a ha
    rw [List.length_append, List.length_singleton]
    rcases mem_concat.mp ha with ha | rfl
    · rcases h.ahead a ha with hle | ⟨k, b, hk, hb, hab⟩
      · exact .inl (hle.trans hnow)
      · exact .inr ⟨k, b, Nat.lt_succ_of_lt hk,
          by rw [List.getElem?_append_left (by omega)]; exact hb, hab⟩
    · rcases hanswer with hle | ⟨k, b, hk, hb, hab⟩
      · exact .inl hle
      · exact .inr ⟨k, b, Nat.lt_succ_of_le hk.le,
          by rw [List.getElem?_append_left (by omega)]; exact hb, hab⟩
  case lower =>
    intro a ha
    rcases mem_concat.mp ha with ha | rfl
    · exact h.lower a ha
    · exact hfits.lower.trans hclock
  case upper =>
    intro k a ha
    show a ≤ now + ↑(k / s.limit.toNat * s.window)
    rcases Nat.lt_trichotomy k history.length with hlt | rfl | hgt
    · rw [List.getElem?_append_left hlt] at ha
      have hold := h.upper k a ha
      linarith
    · rw [List.getElem?_concat_length] at ha
      cases ha
      exact hupper
    · rw [List.getElem?_eq_none (by simp; omega)] at ha
      cases ha

end

@[simp] theorem getExecuteTime_limit (s : RdbFlowControlStrategy) (now : Tp) :
    (s.getExecuteTime now).2.limit = s.limit := by
  rw [RdbFlowControlStrategy.getExecuteTime]
  split <;> rfl

@[simp] theorem getExecuteTime_window (s : RdbFlowControlStrategy) (now : Tp) :
    (s.getExecuteTime now).2.window = s.window := by
  rw [RdbFlowControlStrategy.getExecuteTime]
  split <;> rfl

theorem Fits.of_le {length length' : Nat} (hfits : s.Fits length now) (hle : length' ≤ length) :
    s.Fits length' now := by
  have hend := hfits.upper
  have hmono : (length' / s.limit.toNat + 1) * s.window ≤
      (length / s.limit.toNat + 1) * s.window :=
    Nat.mul_le_mul_right _ (Nat.succ_le_succ (Nat.div_le_div_right hle))
  exact ⟨hfits.lower, by unfold Tp at *; omega⟩

/-- What is assumed of the readings of the clock at later calls carries over a call. -/
theorem fits_getExecuteTime {rest : List Tp} {time : Tp}
    (hfits : ∀ c ∈ now :: rest, s.Fits (history.length + (now :: rest).length) c) :
    ∀ c ∈ rest,
      (s.getExecuteTime now).2.Fits ((history ++ [time]).length + rest.length) c := by
  intro c hc
  obtain ⟨hlower, hupper⟩ := hfits c (List.mem_cons_of_mem _ hc)
  refine ⟨hlower, ?_⟩
  rw [getExecuteTime_limit, getExecuteTime_window, List.length_append, List.length_singleton,
    Nat.add_assoc, Nat.add_comm 1]
  exact hupper

section

variable {clocks : List Tp} (h : s.Tracks history clock) (hlimit : s.limit ≠ 0)
  (hclocks : (clock :: clocks).Pairwise (· ≤ ·))
  (hfits : ∀ c ∈ clocks, s.Fits (history.length + clocks.length) c)

include h hlimit hclocks hfits

theorem Tracks.executeTimes :
    (history ++ s.executeTimes clocks).Pairwise (· ≤ ·) ∧
      Spaced s.limit.toNat (s.window : Tp) (history ++ s.executeTimes clocks) ∧
      List.Forall₂ (· ≤ ·) clocks (s.executeTimes clocks) := by
  induction clocks generalizing s history clock with
  | nil =>
      rw [RdbFlowControlStrategy.executeTimes, List.append_nil]
      exact ⟨h.sorted, h.spaced, List.Forall₂.nil⟩
  | cons now rest ih =>
      have hnow : clock ≤ now := (List.pairwise_cons.mp hclocks).1 now List.mem_cons_self
      have hfirst := (hfits now List.mem_cons_self).of_le (Nat.le_add_right _ _)
      have hstep := h.getExecuteTime hnow hfirst hlimit
      have hrest := ih hstep (by rwa [getExecuteTime_limit]) hclocks.of_cons
        (fits_getExecuteTime hfits)
      rw [getExecuteTime_limit, getExecuteTime_window, List.append_assoc, List.singleton_append]
        at hrest
      exact ⟨hrest.1, hrest.2.1,
        List.Forall₂.cons (h.getExecuteTime_bounds hnow hfirst hlimit).1 hrest.2.2⟩

theorem Tracks.executeTimes_le {earlier times : List Tp}
    (hearlier : List.Forall₂ (· ≤ ·) history earlier) (htimes : List.Forall₂ (· ≤ ·) clocks times)
    (hspaced : Spaced s.limit.toNat (s.window : Tp) (earlier ++ times)) :
    List.Forall₂ (· ≤ ·) (s.executeTimes clocks) times := by
  induction htimes generalizing s history earlier clock with
  | nil => exact .nil
  | @cons now time rest later htime _ ih =>
      have hnow : clock ≤ now := (List.pairwise_cons.mp hclocks).1 now List.mem_cons_self
      have hfirst := (hfits now List.mem_cons_self).of_le (Nat.le_add_right _ _)
      obtain ⟨hlength, hplaces⟩ := List.forall₂_iff_get.mp hearlier
      have hanswer : (s.getExecuteTime now).1 ≤ time := by
        rcases (h.getExecuteTime_bounds hnow hfirst hlimit).2.2 with hle | ⟨k, a, hk, ha, hle⟩
        · exact hle.trans htime
        obtain ⟨hlt, rfl⟩ := List.getElem?_eq_some_iff.mp ha
        have hlt' : k < earlier.length := hlength ▸ hlt
        refine (hle.trans (Int.add_le_add_right (hplaces k hlt hlt') _)).trans
          (hspaced k _ time ?_ ?_)
        · rw [List.getElem?_append_left hlt', List.getElem?_eq_getElem hlt']
          rfl
        · rw [hk, hlength, List.getElem?_append_right le_rfl, Nat.sub_self]
          rfl
      refine .cons hanswer (ih (h.getExecuteTime hnow hfirst hlimit) (by rwa [getExecuteTime_limit])
        hclocks.of_cons (fits_getExecuteTime hfits)
          (List.rel_append hearlier (.cons hanswer .nil)) ?_)
      rwa [getExecuteTime_limit, getExecuteTime_window, List.append_assoc]

end

/-- Each reading of the clock, with a window for every `limit_` of the calls and one more, is
in the range of the counter. -/
def InRange (limit duration : UInt32) (clocks : List Tp) : Prop :=
  ∀ c ∈ clocks, -2 ^ 63 ≤ c ∧
    c + ↑((clocks.length / limit.toNat + 1) * (duration.toNat * 1000000)) < 2 ^ 63

instance (limit duration : UInt32) (clocks : List Tp) :
    Decidable (InRange limit duration clocks) :=
  inferInstanceAs (Decidable (∀ c ∈ clocks, _ ∧ _))

section

variable {limit duration : UInt32} {clocks : List Tp} (hclocks : clocks.Pairwise (· ≤ ·))
  (hrange : InRange limit duration clocks)

include hrange

theorem InRange.fits :
    ∀ c ∈ clocks, (create limit duration).Fits (([] : List Tp).length + clocks.length) c := by
  intro c hc
  obtain ⟨hlower, hupper⟩ := hrange c hc
  rw [List.length_nil, Nat.zero_add]
  exact ⟨hlower, hupper⟩

include hclocks

theorem InRange.pairwise_from : ((-2 ^ 63) :: clocks).Pairwise (· ≤ ·) :=
  List.pairwise_cons.mpr ⟨fun c hc => (hrange c hc).1, hclocks⟩

end

/-- The rate limit, for any number of calls on one strategy whose times do not overflow. -/
theorem executeTimes_rate_limited (limit duration : UInt32) (hlimit : 0 < limit)
    (clocks : List Tp) (hclocks : clocks.Pairwise (· ≤ ·))
    (hrange : InRange limit duration clocks) :
    let times := (create limit duration).executeTimes clocks
    let window : Tp := ↑(duration.toNat * 1000000)
    times.Pairwise (· ≤ ·) ∧ List.Forall₂ (· ≤ ·) clocks times ∧
      (∀ k a b, times[k]? = some a → times[k + limit.toNat]? = some b → a + window ≤ b) ∧
      ∀ t, (times.filter fun x => t ≤ x ∧ x < t + window).length ≤ limit.toNat := by
  have hne : (create limit duration).limit ≠ 0 := fun h0 => by
    rw [show limit = 0 from h0] at hlimit
    exact absurd hlimit (by decide)
  obtain ⟨hsorted, hspaced, hclock⟩ := (tracks_create limit duration (-2 ^ 63)).executeTimes hne
    (hrange.pairwise_from hclocks) hrange.fits
  exact ⟨hsorted, hclock, hspaced, fun t => hspaced.window_count_le hsorted t⟩

theorem executeTimes_rate_limited_two_per_milli :
    (create 2 1).executeTimes [0, 3, 5, 8] = [0, 3, 1000000, 1000003] ∧
      ∀ t, (((create 2 1).executeTimes [0, 3, 5, 8]).filter
        fun x => t ≤ x ∧ x < t + ↑(1 * 1000000)).length ≤ 2 :=
  ⟨by decide, (executeTimes_rate_limited 2 1 (by decide) [0, 3, 5, 8] (by decide)
    (by decide)).2.2.2⟩

theorem getExecuteTime_pair {duration : UInt32} {x y next : Tp}
    (hnext : windowEnd ⟨1, duration, [x, y]⟩ y = next) (h : now ≤ next) :
    getExecuteTime ⟨1, duration, [x, y]⟩ now =
      (next, ⟨1, duration, [y, next]⟩) := by
  simp [getExecuteTime, trim, hnext, h, h.not_gt]

/-- One call in 49 days, after the answers `k - 1` and `k` windows ahead of the clock. -/
def ahead (k : Int) : RdbFlowControlStrategy :=
  ⟨1, 4294967295, [(k - 1) * 4294967295000000, k * 4294967295000000]⟩

theorem windowEnd_ahead {k : Int} (hpos : 0 ≤ k) (hk : k < 2147) :
    (ahead k).windowEnd (k * 4294967295000000) = (k + 1) * 4294967295000000 := by
  have hduration : (4294967295 : UInt32).toNat = 4294967295 := by decide
  have hwindow : (ahead k).window = 4294967295000000 := by rw [window, ahead, hduration]
  have hsum : k * 4294967295000000 + ((ahead k).window : Int) = (k + 1) * 4294967295000000 := by
    rw [hwindow]
    push_cast
    ring
  rw [windowEnd, hsum]
  apply Int.bmod_eq_of_le <;> omega

theorem getExecuteTime_ahead {k : Int} (hpos : 0 ≤ k) (hk : k < 2147) :
    (ahead k).getExecuteTime 0 = ((k + 1) * 4294967295000000, ahead (k + 1)) := by
  have hlate : (0 : Int) ≤ (k + 1) * 4294967295000000 := by omega
  rw [ahead, getExecuteTime_pair (windowEnd_ahead hpos hk) hlate, ahead, Int.add_sub_cancel]

/-- Once the windows end behind the largest count, an answer is earlier than the last one. -/
theorem executeTimes_ahead_decrease {n : Nat} {k : Int} (hpos : 0 ≤ k) (h : k + n = 2147) :
    ¬ (k * 4294967295000000 ::
      (ahead k).executeTimes (List.replicate (n + 1) 0)).Pairwise (· ≤ ·) := by
  induction n generalizing k with
  | zero =>
      obtain rfl : k = 2147 := by omega
      decide +kernel
  | succ n ih =>
      intro hsorted
      rw [List.replicate_succ, executeTimes, getExecuteTime_ahead hpos (by omega)] at hsorted
      exact ih (by omega) (by omega) hsorted.of_cons

/-- Two thousand calls at one reading of the clock, with one call in 49 days. -/
theorem executeTimes_overflow :
    (List.replicate 2149 (0 : Tp)).Pairwise (· ≤ ·) ∧
      ¬ ((create 1 4294967295).executeTimes (List.replicate 2149 0)).Pairwise (· ≤ ·) := by
  refine ⟨List.pairwise_replicate.mpr (.inr le_rfl), ?_⟩
  intro hsorted
  exact executeTimes_ahead_decrease (n := 2146) (k := 1) (by decide) (by decide) hsorted.of_cons

/-- No schedule that keeps to the clocks and to the limit is earlier at any call. -/
theorem executeTimes_le_spaced (limit duration : UInt32) (hlimit : limit ≠ 0)
    (clocks times : List Tp) (hclocks : clocks.Pairwise (· ≤ ·))
    (hrange : InRange limit duration clocks) (htimes : List.Forall₂ (· ≤ ·) clocks times)
    (hspaced : Spaced limit.toNat (↑(duration.toNat * 1000000) : Tp) times) :
    List.Forall₂ (· ≤ ·) ((create limit duration).executeTimes clocks) times :=
  (tracks_create limit duration (-2 ^ 63)).executeTimes_le hlimit
    (hrange.pairwise_from hclocks) hrange.fits .nil htimes hspaced

theorem executeTimes_le_spaced_one_per_milli :
    List.Forall₂ (· ≤ ·) ((create 1 1).executeTimes [0, 3]) [2, 1000002] :=
  executeTimes_le_spaced 1 1 (by decide) _ _ (by decide) (by decide) (by decide)
    fun k a b ha hb => by
      cases k <;> simp_all
      rw [← ha, ← hb]
      decide

end RdbFlowControlStrategy

end DataMgr.Flow
