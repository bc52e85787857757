import OpenPiton.L15.Beats

namespace OpenPiton.L15

namespace Noc1Op

/-- The operations that may turn out not to need the slot they claimed. -/
def guess : Noc1Op → Bool
  | .writebackGuardIfLruM | .writebackGuardIfFlushM | .writebackGuardIfTagcheckM | .dataLdRequestIfTagcheckMiss
  | .dataStUpgradeIfTagcheckSElseStFillIfTagcheckI => true
  | _ => false

end Noc1Op

namespace State

variable {cfg : Config} {s : State} {i : Input}

/-- The cycle in which a request of S3 writes NoC1, if it does. -/
def writeBeatS3 (cfg : Config) (s : State) : Bool :=
  cfg.parallelSrams || !s.s3.noc3Wb && !s.s3.mshrWrite || s.atLastBeatS3 cfg

/-- The request of S3 has a slot that is neither written nor given back: `noc1Staled` marks a
request that was in S3 in the cycle before. -/
def openS3 (cfg : Config) (s : State) : Bool :=
  s.s3.val && (s.s3.ctl cfg).noc1Op != .none &&
    if s.noc1ReqValS3 cfg then !(s.noc1Staled && s.writeBeatS3 cfg)
    else s.s3.cacheSubline == 0 && !s.noc1Staled

def openS2 (cfg : Config) (s : State) : Bool :=
  s.s2.val && (s.s2.ctl cfg).noc1Op != .none && s.s2.cacheSubline == 0

/-- What the requests of S2 and S3 hold, by the weight of their operations. -/
def claimed (cfg : Config) (s : State) (w : Noc1Op → Nat) : Nat :=
  (if s.openS2 cfg then w (s.s2.ctl cfg).noc1Op else 0) + if s.openS3 cfg then w (s.s3.ctl cfg).noc1Op else 0

theorem noc1Staled_step : (s.step cfg i).noc1Staled = s.stallS3 cfg i := by
  have h : ∀ b, (s.stallForCpxS3 cfg i || s.stallForNoc3S3 cfg i) = b → s.stallS3 cfg i = b := by
    intro b hb
    rw [stallS3, hb]
    cases hv : s.s3.val with
    | true => rfl
    | false => simpa [stallForCpxS3, stallForNoc3S3, cpxencoderVal, noc3encoderReqVal, hv] using hb
  simp only [step, staledNext]
  split
  · rfl
  · exact (h _ rfl).symm

theorem noc1ReqValS3_congr {s s' : State} (h : s'.s3 = s.s3) : s'.noc1ReqValS3 cfg = s.noc1ReqValS3 cfg := by
  simp only [noc1ReqValS3, h]

theorem mispredictedS3_congr {s s' : State} (h : s'.s3 = s.s3) : s'.mispredictedS3 cfg = s.mispredictedS3 cfg := by
  simp only [mispredictedS3, noc1ReqValS3, h]

theorem noc1ReqValS3_of_not_guess (hn : (s.s3.ctl cfg).noc1Op ≠ .none)
    (hg : (s.s3.ctl cfg).noc1Op.guess = false) : s.noc1ReqValS3 cfg = true := by
  simp only [noc1ReqValS3]
  cases h : (s.s3.ctl cfg).noc1Op <;> simp_all [Noc1Op.guess]

theorem l1Inv_false (hm : s.s3.Marked cfg) (hc : (s.s3.ctl cfg).cpxOp = .ldResponseIfTagcheckMesFromDcache ∨
    (s.s3.ctl cfg).cpxOp = .stAckIfTagcheckMeWithPossibleInval) : s.s3.l1Inv = false := by
  by_contra hl
  have := hm.l1Inv (by simpa using hl)
  rcases hc with hc | hc <;> simp [hc] at this

/-- A burst of a request that may be mispredicted is of the kind its refund looks at. -/
theorem burst_of_guess (hm : s.s3.Marked cfg) (hg : (s.s3.ctl cfg).noc1Op.guess = true) :
    s.s3.burst = match (s.s3.ctl cfg).noc1Op with
      | .dataLdRequestIfTagcheckMiss => s.s3.l1dLoad
      | .dataStUpgradeIfTagcheckSElseStFillIfTagcheckI => s.s3.mshrWrite
      | _ => s.s3.noc3Wb || s.s3.load64B || s.s3.l1Inv := by
  have hc : (s.s3.ctl cfg).companions = true := decoder_companions cfg s.s3.d
  have hwb := hm.noc3Wb
  have hld := hm.load64B
  have hl1 := hm.l1dLoad
  have hmw := hm.mshrWrite
  cases hop : (s.s3.ctl cfg).noc1Op <;> simp only [hop, Noc1Op.guess, Bool.false_eq_true] at hg
  case writebackGuardIfLruM | writebackGuardIfFlushM | writebackGuardIfTagcheckM =>
    simp only [Ctl.companions, hop, Bool.and_eq_true, beq_iff_eq] at hc
    obtain ⟨⟨⟨hd, hx⟩, -⟩, -⟩ := hc
    rw [hd] at hld hmw
    rw [hx] at hl1
    simp [S3.burst, hld, hmw, hl1]
  case dataLdRequestIfTagcheckMiss =>
    simp only [Ctl.companions, hop, Bool.and_eq_true, beq_iff_eq] at hc
    obtain ⟨⟨⟨hd, hx⟩, -⟩, -⟩ := hc
    rw [hd] at hld hmw
    rw [hop] at hwb
    simp [S3.burst, hld, hmw, hwb, l1Inv_false hm (.inl hx)]
  case dataStUpgradeIfTagcheckSElseStFillIfTagcheckI =>
    simp only [Ctl.companions, hop, Bool.and_eq_true, beq_iff_eq] at hc
    obtain ⟨⟨⟨hd, hx⟩, -⟩, -⟩ := hc
    rw [hd] at hld
    rw [hop] at hwb
    rw [hx] at hl1
    simp [S3.burst, hld, hl1, hwb, l1Inv_false hm (.inr hx)]

theorem mispredictedS3_eq (hm : s.s3.Marked cfg) :
    s.mispredictedS3 cfg = (s.s3.val && (s.s3.ctl cfg).noc1Op != .none && !s.noc1ReqValS3 cfg &&
      !(s.s3.burst && s.s3.cacheSubline != 0)) := by
  by_cases hn : (s.s3.ctl cfg).noc1Op = .none
  · simp [mispredictedS3, hn]
  · rw [bne_iff_ne.mpr hn, Bool.and_true]
    cases hg : (s.s3.ctl cfg).noc1Op.guess with
    | false =>
        have hr := noc1ReqValS3_of_not_guess hn hg
        simp only [mispredictedS3, hr]
        split <;> simp
    | true =>
        rw [burst_of_guess hm hg]
        simp only [mispredictedS3]
        cases hop : (s.s3.ctl cfg).noc1Op <;>
          simp only [hop, Noc1Op.guess, Bool.false_eq_true] at hg <;>
          simp [Bool.and_comm, Bool.and_left_comm]

theorem burst_of_not_mayBurst (hm : s.s3.Marked cfg) (hc : (s.s3.ctl cfg).mayBurst = false) :
    s.s3.burst = false := by
  obtain ⟨hwb, hld, hl1, hmw, hinv⟩ := hm
  simp only [Ctl.mayBurst, Bool.or_eq_false_iff] at hc
  obtain ⟨⟨hd, hn⟩, hx⟩ := hc
  have hinv' : s.s3.l1Inv = false := by
    by_contra hl
    have := hinv (by simpa using hl)
    revert this hx
    cases (s.s3.ctl cfg).cpxOp <;> simp
  have e1 : s.s3.load64B = false := by rw [hld]; revert hd; cases (s.s3.ctl cfg).dcacheOp <;> simp
  have e2 : s.s3.mshrWrite = false := by rw [hmw]; revert hd; cases (s.s3.ctl cfg).dcacheOp <;> simp
  have e3 : s.s3.noc3Wb = false := by rw [hwb]; revert hn; cases (s.s3.ctl cfg).noc1Op <;> simp
  have e4 : s.s3.l1dLoad = false := by rw [hl1]; revert hx; cases (s.s3.ctl cfg).cpxOp <;> simp
  simp [S3.burst, e1, e2, e3, e4, hinv']

/-- A request that writes NoC1 in a burst writes it with the dirty line. -/
theorem noc3Wb_of_reqVal (hm : s.s3.Marked cfg) (hn : (s.s3.ctl cfg).noc1Op ≠ .none)
    (hr : s.noc1ReqValS3 cfg = true) (hb : s.s3.burst = true) : s.s3.noc3Wb = true := by
  have hc : (s.s3.ctl cfg).companions = true := decoder_companions cfg s.s3.d
  cases hg : (s.s3.ctl cfg).noc1Op.guess with
  | true =>
      have hwb := hm.noc3Wb
      have hbu := burst_of_guess hm hg
      rw [hb] at hbu
      simp only [noc1ReqValS3] at hr
      cases hop : (s.s3.ctl cfg).noc1Op <;> simp only [hop, Noc1Op.guess, Bool.false_eq_true] at hg hr hwb hbu
      case writebackGuardIfLruM | writebackGuardIfFlushM =>
        rw [hwb] at hr ⊢
        simpa using hr
      case writebackGuardIfTagcheckM =>
        rw [hwb] at hr ⊢
        rw [Bool.or_eq_true, Bool.and_eq_true] at hr
        exact hr.elim id And.left
      case dataLdRequestIfTagcheckMiss =>
        have hl1 := hm.l1dLoad
        simp only [Ctl.companions, hop, Bool.and_eq_true, beq_iff_eq] at hc
        rw [hc.1.1.2, ← hbu] at hl1
        simp [← hl1] at hr
      case dataStUpgradeIfTagcheckSElseStFillIfTagcheckI =>
        have hmw := hm.mshrWrite
        simp only [Ctl.companions, hop, Bool.and_eq_true, beq_iff_eq] at hc
        rw [hc.1.1.1, ← hbu] at hmw
        cases hst : s.s3.tagcheckState <;> rw [hst] at hr hmw <;> simp [Mesi.me] at hr hmw
  | false =>
      have hmb : (s.s3.ctl cfg).mayBurst = false := by
        cases hop : (s.s3.ctl cfg).noc1Op <;> simp_all [Ctl.companions, Noc1Op.guess]
      rw [burst_of_not_mayBurst hm hmb] at hb
      cases hb

theorem mispredictedS3_iff (hb : Beats cfg s) (hm : s.s3.Marked cfg) :
    s.mispredictedS3 cfg = (s.s3.val && (s.s3.ctl cfg).noc1Op != .none && !s.noc1ReqValS3 cfg &&
      s.s3.cacheSubline == 0) := by
  rw [mispredictedS3_eq hm]
  cases hv : s.s3.val with
  | false => rfl
  | true =>
      cases hbu : s.s3.burst with
      | false => simp [hb.single hv hbu]
      | true => simp [bne]

/-- A request that needs NoC1 has its last chance to write when nothing of its burst follows. -/
theorem writeBeatS3_of_last (hb : Beats cfg s) (hv : s.s3.val = true)
    (h0 : s.s2.cacheSubline = 0) : s.writeBeatS3 cfg = true := by
  cases hbu : s.s3.burst with
  | false =>
      simp only [S3.burst, Bool.or_eq_false_iff] at hbu
      simp [writeBeatS3, hbu]
  | true =>
      have hl : s.s3.cacheSubline = cfg.lastBeat := by
        by_contra hl
        have := hb.last hv hbu hl
        omega
      simp [writeBeatS3, atLastBeatS3, hl]

theorem writeBeatS3_of_follows (hb : Beats cfg s) (hwb : s.s3.noc3Wb = true) (h0 : s.s2.cacheSubline ≠ 0) :
    s.writeBeatS3 cfg = false := by
  have hsub := (hb.follows h0).2.2.1
  have hle := hb.le
  have hl : s.s3.cacheSubline ≠ cfg.lastBeat := by omega
  have hp : cfg.parallelSrams = false := by
    cases ho : cfg.organisation <;> simp only [Config.parallelSrams, ho]
    simp only [Config.lastBeat, ho] at hle
    omega
  simp [writeBeatS3, atLastBeatS3, hwb, hl, hp]

theorem noc1ReqValS3_s3Latch (hb : Beats cfg s) (h0 : s.s2.cacheSubline ≠ 0) {s' : State}
    (h : s'.s3 = s.s3Latch cfg) : s'.noc1ReqValS3 cfg = s.noc1ReqValS3 cfg := by
  have hop := (hb.follows h0).2.2.2
  have ht : s.s3.tagcheckState = s.tagcheckStateS2 cfg := congrArg S3.tagcheckState hop
  have hfl : s.s3.flushState = s.flushStateS2 cfg := congrArg S3.flushState hop
  have hwb : s.s3.noc3Wb = s.noc3WbS2 cfg := congrArg S3.noc3Wb hop
  have hc : s.s3.ctl cfg = s.s2.ctl cfg := by rw [S3.ctl, hb.s3_d h0]; rfl
  have hc' : (s.s3Latch cfg).ctl cfg = s.s2.ctl cfg := rfl
  simp only [noc1ReqValS3, h, hc, hc', ht, hfl, hwb]
  cases hn : (s.s2.ctl cfg).noc1Op <;> simp only [s3Latch]
  rw [(hb.lru h0 (eviction_iff.mpr (.inl hn))).2.1]

theorem noc1bufferReqVal_eq : s.noc1bufferReqVal cfg =
    (s.s3.val && s.noc1ReqValS3 cfg && !s.noc1Staled && s.writeBeatS3 cfg) := rfl

theorem openS3_hold (hst : s.stallS3 cfg i = true) (hmis : s.mispredictedS3 cfg = false) (hb : Beats cfg s)
    (hm : s.s3.Marked cfg) :
    ((s.step cfg i).openS3 cfg || s.noc1bufferReqVal cfg) = s.openS3 cfg ∧
      ((s.step cfg i).openS3 cfg && s.noc1bufferReqVal cfg) = false := by
  have h3 : (s.step cfg i).s3 = s.s3 := s3Next_of_stall hst
  have hs : (s.step cfg i).noc1Staled = true := noc1Staled_step.trans hst
  have hv := stallS3_val hst
  have hw : (s.step cfg i).writeBeatS3 cfg = s.writeBeatS3 cfg := by simp only [writeBeatS3, atLastBeatS3, h3]
  rw [mispredictedS3_iff hb hm, hv] at hmis
  simp only [openS3, noc1bufferReqVal_eq, h3, hs, hv, hw, noc1ReqValS3_congr h3, Bool.true_and, Bool.not_true,
    Bool.and_false] at hmis ⊢
  cases hr : s.noc1ReqValS3 cfg with
  | true =>
      rw [noc1Op_of_reqVal hr]
      cases s.noc1Staled <;> cases s.writeBeatS3 cfg <;> simp
  | false => cases hn : (s.s3.ctl cfg).noc1Op != .none <;> simp_all

/-- With nothing of its burst behind it, a request that leaves S3 writes its slot or gives it back. -/
theorem openS3_done (h0 : s.s2.cacheSubline = 0) (hq : s.noc1Staled = true → s.mispredictedS3 cfg = false)
    (hb : Beats cfg s) (hm : s.s3.Marked cfg) :
    (s.noc1bufferReqVal cfg || s.mispredictedS3 cfg) = s.openS3 cfg ∧
      (s.noc1bufferReqVal cfg && s.mispredictedS3 cfg) = false := by
  cases hv : s.s3.val with
  | false => simp [noc1bufferReqVal_eq, mispredictedS3_iff hb hm, openS3, hv]
  | true =>
      have hw := writeBeatS3_of_last hb hv h0
      rw [mispredictedS3_iff hb hm] at hq ⊢
      simp only [noc1bufferReqVal_eq, openS3, hv, hw, Bool.true_and, Bool.and_true] at hq ⊢
      cases hr : s.noc1ReqValS3 cfg with
      | true => simp [noc1Op_of_reqVal hr]
      | false =>
          simp only [hr, Bool.not_false, Bool.and_true] at hq
          cases hg : s.noc1Staled with
          | true => simp [hq hg]
          | false => simp

theorem openS3_next (hst : s.stallS3 cfg i = false) (h0 : s.s2.cacheSubline = 0) :
    (s.step cfg i).openS3 cfg = s.openS2 cfg := by
  have h3 : (s.step cfg i).s3 = s.s3Latch cfg := s3Next_of_move hst
  have hs : (s.step cfg i).noc1Staled = false := noc1Staled_step.trans hst
  have hc : (s.s3Latch cfg).ctl cfg = s.s2.ctl cfg := rfl
  have hv : (s.s3Latch cfg).val = s.s2.val := rfl
  have hsub : (s.s3Latch cfg).cacheSubline = 0 := h0
  simp only [openS3, openS2, h3, hs, hc, hv, hsub, h0]
  simp

/-- In a burst a slot given back is given back with the first beat, and one to be written stays. -/
theorem openS3_follow (hst : s.stallS3 cfg i = false) (h0 : s.s2.cacheSubline ≠ 0)
    (hq : s.noc1Staled = true → s.mispredictedS3 cfg = false) (hb : Beats cfg s) (hm : s.s3.Marked cfg) :
    s.noc1bufferReqVal cfg = false ∧ ((s.step cfg i).openS3 cfg || s.mispredictedS3 cfg) = s.openS3 cfg ∧
      ((s.step cfg i).openS3 cfg && s.mispredictedS3 cfg) = false := by
  have h3 : (s.step cfg i).s3 = s.s3Latch cfg := s3Next_of_move hst
  have hs : (s.step cfg i).noc1Staled = false := noc1Staled_step.trans hst
  have hv := hb.s3_val h0
  have hc : (s.s3Latch cfg).ctl cfg = s.s3.ctl cfg := by rw [S3.ctl, S3.ctl, hb.s3_d h0]; rfl
  have hr := noc1ReqValS3_s3Latch hb h0 h3
  have hv' : (s.s3Latch cfg).val = true := (hb.follows h0).1
  have hsub : (s.s3Latch cfg).cacheSubline ≠ 0 := h0
  have hw : s.noc1ReqValS3 cfg = true → s.writeBeatS3 cfg = false := fun hrv =>
    writeBeatS3_of_follows hb
      (noc3Wb_of_reqVal hm (bne_iff_ne.mp (noc1Op_of_reqVal hrv)) hrv (hb.s3_burst h0)) h0
  rw [mispredictedS3_iff hb hm] at hq ⊢
  simp only [noc1bufferReqVal_eq, openS3, h3, hc, hr, hs, hv, hv', Bool.true_and] at hq ⊢
  cases hrv : s.noc1ReqValS3 cfg with
  | true => simp [hw hrv, noc1Op_of_reqVal hrv]
  | false =>
      simp only [hrv, Bool.not_false, Bool.and_true] at hq
      cases hg : s.noc1Staled with
      | true => simp [hsub, hq hg]
      | false => simp [hsub]

theorem add_ite_or {a b : Bool} (h : (a && b) = false) (n : Nat) :
    (if a then n else 0) + (if b then n else 0) = if a || b then n else 0 := by
  cases a <;> cases b <;> simp_all

/-- What a cycle does to the claims of S2 and S3: S1 adds one, a write and a refund take one. -/
theorem claimed_step (w : Noc1Op → Nat) (hb : Beats cfg s) (hm : s.s3.Marked cfg)
    (hq : s.noc1Staled = true → s.mispredictedS3 cfg = false)
    (honce : s.mispredictedS3 cfg = true → s.stallS3 cfg i = false) :
    (s.step cfg i).claimed cfg w + (if s.noc1bufferReqVal cfg then w (s.s3.ctl cfg).noc1Op else 0) +
        (if s.mispredictedS3 cfg then w (s.s3.ctl cfg).noc1Op else 0) =
      s.claimed cfg w +
        if s.acceptS1 cfg i && (s.ctlS1 cfg).noc1Op != .none then w (s.ctlS1 cfg).noc1Op else 0 := by
  have h3 : s.stallS3 cfg i = true → ((s.step cfg i).s3.ctl cfg).noc1Op = (s.s3.ctl cfg).noc1Op := fun hst => by
    rw [step_s3, s3Next_of_stall hst]
  have h3' : s.stallS3 cfg i = false → ((s.step cfg i).s3.ctl cfg).noc1Op = (s.s2.ctl cfg).noc1Op := fun hst => by
    rw [step_s3, s3Next_of_move hst]; rfl
  have hs3 : (if (s.step cfg i).openS3 cfg then w ((s.step cfg i).s3.ctl cfg).noc1Op else 0) +
      (if s.noc1bufferReqVal cfg then w (s.s3.ctl cfg).noc1Op else 0) +
      (if s.mispredictedS3 cfg then w (s.s3.ctl cfg).noc1Op else 0) =
      (if s.openS3 cfg then w (s.s3.ctl cfg).noc1Op else 0) +
        if s.openS2 cfg && !s.stallS3 cfg i then w (s.s2.ctl cfg).noc1Op else 0 := by
    cases hst : s.stallS3 cfg i with
    | true =>
        have hmis : s.mispredictedS3 cfg = false := by
          by_contra hc
          simp [honce (by simpa using hc)] at hst
        obtain ⟨hor, hand⟩ := openS3_hold (i := i) hst hmis hb hm
        rw [h3 hst, add_ite_or hand, hor]
        simp [hmis]
    | false =>
        rw [h3' hst]
        by_cases h0 : s.s2.cacheSubline = 0
        · obtain ⟨hor, hand⟩ := openS3_done h0 hq hb hm
          rw [openS3_next hst h0, Nat.add_assoc, add_ite_or hand, hor, Nat.add_comm]
          simp
        · obtain ⟨hreq, hor, hand⟩ := openS3_follow (i := i) hst h0 hq hb hm
          have hc : (s.s2.ctl cfg).noc1Op = (s.s3.ctl cfg).noc1Op := by rw [S2.ctl, S3.ctl, hb.s3_d h0]
          have h2 : s.openS2 cfg = false := by simp [openS2, h0]
          rw [hc, Nat.add_right_comm, add_ite_or hand, hor, hreq, h2]
          simp
  have hs2 : (if (s.step cfg i).openS2 cfg then w ((s.step cfg i).s2.ctl cfg).noc1Op else 0) +
      (if s.openS2 cfg && !s.stallS3 cfg i then w (s.s2.ctl cfg).noc1Op else 0) =
      (if s.openS2 cfg then w (s.s2.ctl cfg).noc1Op else 0) +
        if s.acceptS1 cfg i && (s.ctlS1 cfg).noc1Op != .none then w (s.ctlS1 cfg).noc1Op else 0 := by
    rcases s2_cases cfg s i with ⟨hv, hst, he⟩ | ⟨hv, hst, hl, he⟩ | ⟨h2, hst, he⟩
    · have ha : s.acceptS1 cfg i = false := acceptS1_of_stallS2 (by simp [stallS2, stallRealS2_eq hv, hst])
      simp [openS2, he, hst, ha]
    · have ha : s.acceptS1 cfg i = false := acceptS1_of_stallS2 (by simp [stallS2, hl])
      simp [openS2, he, hst, ha]
    · have ho : (s.step cfg i).openS2 cfg = (s.acceptS1 cfg i && (s.ctlS1 cfg).noc1Op != .none) := by
        simp only [openS2, step_s2, he]
        exact Bool.and_true _
      have hc : ((s.step cfg i).s2.ctl cfg).noc1Op = (s.ctlS1 cfg).noc1Op := by rw [step_s2, he]; rfl
      rw [ho, hc, Nat.add_comm]
      congr 1
      cases hv : s.s2.val with
      | false => simp [openS2, hv]
      | true => simp [hst hv]
  simp only [claimed]
  omega

end State

end OpenPiton.L15
