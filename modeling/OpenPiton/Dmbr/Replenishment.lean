import OpenPiton.Dmbr.Credits

namespace OpenPiton.Dmbr

/-- A cycle of operation, perhaps with a new configuration whose scale keeps the counters in range. -/
def ShaperIn.Configures (i : ShaperIn) : Prop :=
  i.rst = false ∧ i.funcEn = true ∧ (i.procLd = true → 10 * 2 ^ i.binScaleIn.toNat + 1 < 2 ^ 9)

instance (i : ShaperIn) : Decidable i.Configures := inferInstanceAs (Decidable (_ ∧ _ ∧ _))

namespace Shaper

/-- A new period is not below what the interval counter is about to be. -/
def LoadsPeriod (s : Shaper) (i : ShaperIn) : Prop := i.procLd = true → s.nextRepInterval ≤ i.replenishCyclesIn

instance (s : Shaper) (i : ShaperIn) : Decidable (s.LoadsPeriod i) := inferInstanceAs (Decidable (_ → _))

structure Timed (s : Shaper) : Prop where
  period : s.repInterval ≤ s.replenishCycles
  scale : 10 * 2 ^ s.binScale.toNat + 1 < 2 ^ 9

variable {s : Shaper} {i : ShaperIn} {k : Fin 10}

theorem toNat_nextRepInterval (h : s.repInterval ≤ s.replenishCycles) :
    s.nextRepInterval.toNat = if s.repEn then 0 else s.repInterval.toNat + 1 := by
  rw [nextRepInterval]
  cases hrep : s.repEn with
  | true => rfl
  | false =>
      have hne : s.repInterval ≠ s.replenishCycles := by simpa [repEn] using hrep
      simp only [Bool.false_eq_true, if_false]
      exact Counter.toNat_succ_of_ne h hne

theorem nextRepInterval_le (h : s.repInterval ≤ s.replenishCycles) : s.nextRepInterval ≤ s.replenishCycles := by
  have hnext := toNat_nextRepInterval h
  rw [BitVec.le_def] at h ⊢
  cases hrep : s.repEn with
  | true =>
      rw [hnext, hrep, if_pos rfl]
      exact Nat.zero_le _
  | false =>
      have hne : s.repInterval ≠ s.replenishCycles := by simpa [repEn] using hrep
      have hlt : s.repInterval.toNat ≠ s.replenishCycles.toNat := fun he => hne (BitVec.eq_of_toNat_eq he)
      rw [hnext, hrep, if_neg Bool.false_ne_true]
      omega

theorem timed_reset : reset.Timed := ⟨by decide, by decide⟩

theorem step_period (hi : i.Configures) :
    (s.step i).repInterval = s.nextRepInterval ∧
      (s.step i).replenishCycles = if i.procLd then i.replenishCyclesIn else s.replenishCycles := by
  simp [step, hi.1, hi.2.1]

/-- A configuration breaks the bound exactly when it loads a period that the counter has passed. -/
theorem period_step_iff (h : s.repInterval ≤ s.replenishCycles) (hi : i.Configures) :
    (s.step i).repInterval ≤ (s.step i).replenishCycles ↔ s.LoadsPeriod i := by
  obtain ⟨hint, hcyc⟩ := step_period (s := s) hi
  rw [hint, hcyc, LoadsPeriod]
  cases i.procLd with
  | false => exact iff_of_true (nextRepInterval_le h) fun hf => (Bool.false_ne_true hf).elim
  | true => simp

theorem Timed.step (h : s.Timed) (hi : i.Configures) (hl : s.LoadsPeriod i) : (s.step i).Timed where
  period := (period_step_iff h.period hi).mpr hl
  scale := by
    rw [Shaper.step, hi.1, hi.2.1]
    simp only [Bool.false_eq_true, if_false, if_true]
    cases hld : i.procLd with
    | false => exact h.scale
    | true => exact hi.2.2 hld

/-- In a cycle with a replenishment every bin gets its configured credit back, or one more. -/
theorem repCredit_le_nextCredit (hrep : s.repEn = true) (k : Fin 10) : s.repCredit k ≤ s.nextCredit i k := by
  have hadd : s.addEn i k = true → s.repCredit k ≤ s.addOut i := by
    intro hk
    have hin : s.input2 i = s.repCredit k := by
      rw [input2, hrep]
      exact mux_eq s.repCredit hk fun j hj => addEn_unique hj hk
    rw [addOut, hin, BitVec.le_def]
    have hlt := (s.repCredit k).isLt
    split
    case isTrue h =>
      rw [Counter.toNat_succ_of_lt h]
      exact Nat.le_succ _
    case isFalse => exact Nat.le_refl _
  have hreq : s.reqEn i k = true → s.reqOut i = s.repCredit k := by
    intro hk
    rw [reqOut, hrep]
    exact mux_eq s.repCredit hk fun j hj => reqEn_unique hj hk
  rw [nextCredit, hrep]
  cases hr : s.reqEn i k with
  | false =>
      cases ha : s.addEn i k with
      | false => exact BitVec.le_refl _
      | true => exact hadd ha
  | true =>
      cases ha : s.addEn i k with
      | false => exact BitVec.le_of_eq (hreq hr).symm
      | true => exact BitVec.le_refl _

/-- The cycles leave the period as it is. -/
def KeepsPeriod (r : BitVec 16) (i : ShaperIn) : Prop := i.Configures ∧ (i.procLd = true → i.replenishCyclesIn = r)

/-- Within a period the counter reaches the period, if no other is loaded. -/
theorem exists_replenishment (h : s.repInterval ≤ s.replenishCycles) {is : List ShaperIn}
    (hlen : s.replenishCycles.toNat - s.repInterval.toNat < is.length) (his : ∀ i ∈ is, KeepsPeriod s.replenishCycles i) :
    ∃ before i after, is = before ++ i :: after ∧ (Machine.run step s before).repEn = true := by
  induction is generalizing s with
  | nil => exact absurd hlen (Nat.not_lt_zero _)
  | cons i is ih =>
      cases hrep : s.repEn with
      | true => exact ⟨[], i, is, rfl, hrep⟩
      | false =>
          obtain ⟨hi, hld⟩ := his i List.mem_cons_self
          obtain ⟨hint, hcyc⟩ := step_period (s := s) hi
          have hkeep : (s.step i).replenishCycles = s.replenishCycles := by
            rw [hcyc]
            split
            case isTrue hl => exact hld hl
            case isFalse => rfl
          have hnat := toNat_nextRepInterval h
          rw [hrep, if_neg Bool.false_ne_true] at hnat
          have hle := nextRepInterval_le h
          have hle' := hle
          rw [BitVec.le_def] at hle'
          simp only [List.length_cons] at hlen
          obtain ⟨before, j, after, rfl, hj⟩ := @ih (s.step i) (by rw [hint, hkeep]; exact hle)
            (by rw [hint, hkeep]; omega) (by rw [hkeep]; exact fun j hj => his j (List.mem_cons_of_mem i hj))
          exact ⟨i :: before, j, after, rfl, hj⟩

/-- The stall of a miss is the threshold of its bin less the interval, or what is left of the period when no bin has
credit; neither difference is negative. -/
theorem toNat_stallCycles (h : s.Timed) (hmiss : i.l1missIn = true) (hstall : s.stallCycles i ≠ 0) :
    (∃ k, s.charged i = some k ∧ s.sumCounter.toNat < k * 2 ^ s.binScale.toNat ∧
        (s.stallCycles i).toNat = k * 2 ^ s.binScale.toNat - s.sumCounter.toNat) ∨
      (s.charged i = none ∧ s.repInterval ≤ s.replenishCycles ∧
        (s.stallCycles i).toNat = s.replenishCycles.toNat - s.repInterval.toNat) := by
  have hcur : s.curInterval i = s.sumCounter := if_pos hmiss
  have hch := s.choice_chooses i
  rw [stallCycles, if_pos hmiss] at hstall ⊢
  rw [charged]
  generalize s.choice i = c at hch hstall
  cases hch with
  | reached k => exact absurd rfl hstall
  | above k hk hr =>
      have hlt : s.sumCounter.toNat < k * 2 ^ s.binScale.toNat := by
        rw [← hcur, ← Nat.not_le, ← reached_iff h.scale, hr k hk]
        exact Bool.false_ne_true
      have hset : (s.sumCounter.setWidth 16).toNat = s.sumCounter.toNat :=
        BitVec.toNat_setWidth_of_le (by decide)
      refine .inl ⟨k, if_neg (number_ne_none k), hlt, ?_⟩
      rw [hcur, BitVec.toNat_sub_of_le, toNat_threshold (by decide) h.scale, hset]
      rw [BitVec.le_def, toNat_threshold (by decide) h.scale, hset]
      exact Nat.le_of_lt hlt
  | empty => exact .inr ⟨if_pos rfl, h.period, BitVec.toNat_sub_of_le h.period⟩

/-- In every run from reset whose configurations load no period that the interval counter has passed: the counter
never exceeds the period, so the credits are replenished once in any period and a cycle more that leave the period as it
is; a stall is the exact difference that it stands for. A configuration that does load such a period breaks the bound. -/
theorem replenishes_in_period
    (h : Machine.Reaches (· = reset) step (fun s i => i.Configures ∧ s.LoadsPeriod i) s) :
    s.repInterval ≤ s.replenishCycles ∧
      (∀ is : List ShaperIn, is.length = s.replenishCycles.toNat + 1 → (∀ i ∈ is, KeepsPeriod s.replenishCycles i) →
        ∃ before i after, is = before ++ i :: after ∧ (Machine.run step s before).repEn = true ∧
          (i.procLd = false →
            ∀ k, (Machine.run step s before).repCredit k ≤ ((Machine.run step s before).step i).curCredit k)) ∧
      (∀ i : ShaperIn, i.l1missIn = true → s.stallCycles i ≠ 0 →
        (∃ k, s.charged i = some k ∧ s.sumCounter.toNat < k * 2 ^ s.binScale.toNat ∧
            (s.stallCycles i).toNat = k * 2 ^ s.binScale.toNat - s.sumCounter.toNat) ∨
          (s.charged i = none ∧ s.repInterval ≤ s.replenishCycles ∧
            (s.stallCycles i).toNat = s.replenishCycles.toNat - s.repInterval.toNat)) ∧
      ∀ i : ShaperIn, i.Configures →
        ((s.step i).repInterval ≤ (s.step i).replenishCycles ↔ s.LoadsPeriod i) := by
  have htimed : s.Timed := by
    refine h.invariant ?_ fun _ _ hs hi => hs.step hi.1 hi.2
    rintro _ rfl
    exact timed_reset
  refine ⟨htimed.period, ?_, fun i => toNat_stallCycles htimed, fun i => period_step_iff htimed.period⟩
  intro is hlen his
  obtain ⟨before, i, after, rfl, hrep⟩ := exists_replenishment htimed.period (by omega) his
  refine ⟨before, i, after, rfl, hrep, ?_⟩
  intro hld k
  have hi := (his i (by simp)).1
  have hstep : ((Machine.run step s before).step i).curCredit = (Machine.run step s before).nextCredit i := by
    simp [step, hi.1, hi.2.1, hld]
  rw [hstep]
  exact repCredit_le_nextCredit hrep k

/-- A cycle that loads a period, with no credit for any bin. -/
def loads (period : BitVec 16) : ShaperIn :=
  { Traffic.traffic none none with procLd := true, replenishCyclesIn := period }

/-- A period of five cycles is loaded, and three cycles later a miss without credit waits for the end of it. -/
theorem replenishes_in_period_five :
    let s := Machine.run step reset (loads 5 :: List.replicate 3 (Traffic.traffic none none))
    s.repInterval = 3 ∧ (s.stallCycles (Traffic.traffic (some 0) none)).toNat = 2 := by
  intro s
  have hmeets : Machine.Meets step (fun s i => i.Configures ∧ s.LoadsPeriod i) reset
      (loads 5 :: List.replicate 3 (Traffic.traffic none none)) := by decide +kernel
  have hstart : Machine.Reaches (· = reset) step (fun s i => i.Configures ∧ s.LoadsPeriod i) reset := .start rfl
  have hreach : Machine.Reaches (· = reset) step (fun s i => i.Configures ∧ s.LoadsPeriod i) s := hstart.run hmeets
  have hstall := (replenishes_in_period hreach).2.2.1 (Traffic.traffic (some 0) none) rfl (by decide +kernel)
  have hint : s.repInterval = 3 := by decide +kernel
  refine ⟨hint, ?_⟩
  obtain ⟨k, hk, -⟩ | ⟨-, -, hcycles⟩ := hstall
  · have hnone : s.charged (Traffic.traffic (some 0) none) = none := by decide +kernel
    rw [hnone] at hk
    cases hk
  · exact hcycles.trans (by decide +kernel)

/-- A period of one cycle is loaded when the counter is at three. -/
theorem period_passed :
    ¬ ∀ s : Shaper, Machine.Reaches (· = reset) step (fun _ i => i.Configures) s → s.repInterval ≤ s.replenishCycles := by
  intro h
  have hmeets : Machine.Meets step (fun _ i => i.Configures) reset
      (loads 5 :: List.replicate 3 (Traffic.traffic none none) ++ [loads 1]) := by decide +kernel
  have hstart : Machine.Reaches (· = reset) step (fun _ i => i.Configures) reset := .start rfl
  have hle := h _ (hstart.run hmeets)
  revert hle
  decide +kernel

end Shaper

end OpenPiton.Dmbr
