import OpenPiton.L15.Operations
import OpenPiton.L15.Pipeline

namespace OpenPiton.L15.State

variable {cfg : Config} {s : State} {i : Input}

@[simp] theorem step_pcx : (s.step cfg i).pcx = s.pcxNext cfg i := rfl
@[simp] theorem step_pcxNew :
    (s.step cfg i).pcxNew = isNewNext (s.pcxAck cfg i) (s.pcxHeaderAck cfg i) s.pcxNew := rfl
@[simp] theorem step_fetchState : (s.step cfg i).fetchState = s.fetchStateNext cfg i := rfl
@[simp] theorem step_credit : (s.step cfg i).credit = s.creditmanNext cfg i := rfl
@[simp] theorem step_noc1 : (s.step cfg i).noc1 = s.noc1.step (s.noc1bufferReq cfg) (s.noc1Sent i) := rfl
@[simp] theorem step_arrays : (s.step cfg i).arrays = s.arraysNext cfg i := rfl
@[simp] theorem step_s2 : (s.step cfg i).s2 = s.s2Next cfg i := rfl
@[simp] theorem step_s3 : (s.step cfg i).s3 = s.s3Next cfg i := rfl
@[simp] theorem step_mshr :
    (s.step cfg i).mshr = s.mshr.write cfg (s.mshrS1Write cfg i) (s.mshrS3Write cfg) := rfl

@[simp] theorem decoderInS1_fetchState : (s.decoderInS1 cfg).fetchState = s.fetchState := rfl
theorem decoderInS1_reqtype : (s.decoderInS1 cfg).reqtype = (s.preS1 cfg).reqtype := rfl

/-! ## Stalls -/

theorem val_of_acceptS1 (h : s.acceptS1 cfg i = true) : (s.preS1 cfg).val = true := by
  simp only [acceptS1, Bool.and_eq_true] at h
  exact h.1

theorem stallS1_of_acceptS1 (h : s.acceptS1 cfg i = true) : s.stallS1 cfg i = false := by
  simp only [acceptS1, Bool.and_eq_true, Bool.not_eq_true'] at h
  exact h.2

theorem stallS2_of_acceptS1 (h : s.acceptS1 cfg i = true) : s.stallS2 cfg i = false := by
  have hs := stallS1_of_acceptS1 h
  simp only [stallS1, val_of_acceptS1 h, Bool.true_and, Bool.or_eq_false_iff] at hs
  exact hs.1.1.2

theorem noc1Space_of_acceptS1 (h : s.acceptS1 cfg i = true) : s.stallPcxNoc1BufferS1 cfg = false := by
  have hs := stallS1_of_acceptS1 h
  simp only [stallS1, val_of_acceptS1 h, Bool.true_and, Bool.or_eq_false_iff] at hs
  exact hs.2

theorem index_of_acceptS1 (h : s.acceptS1 cfg i = true)
    (hc : (s.ctlS1 cfg).stallOnMatchedBypassedIndex = true) :
    (s.s2.val = true → cfg.cacheIndex (s.preS1 cfg).address ≠ cfg.cacheIndex s.s2.address) ∧
      (s.s3.val = true → cfg.cacheIndex (s.preS1 cfg).address ≠ cfg.cacheIndex s.s3.address) := by
  have hs := stallS1_of_acceptS1 h
  simp only [stallS1, val_of_acceptS1 h, Bool.true_and, Bool.or_eq_false_iff, stallIndexConflictS1, hc,
    Bool.and_eq_false_imp, beq_eq_false_iff_ne] at hs
  exact hs.1.1.1.2

theorem stallS3_val (h : s.stallS3 cfg i = true) : s.s3.val = true := by
  simp only [stallS3, Bool.and_eq_true] at h
  exact h.1

theorem stallRealS2_eq (h : s.s2.val = true) : s.stallRealS2 cfg i = s.stallS3 cfg i := by
  simp [stallRealS2, h]

theorem acceptS1_of_stallS2 (h : s.stallS2 cfg i = true) : s.acceptS1 cfg i = false := by
  by_contra ha
  simp [stallS2_of_acceptS1 (by simpa using ha)] at h

theorem stallS3_of_advance (hv : s.s2.val = true) (h : s.stallS2 cfg i = false) : s.stallS3 cfg i = false := by
  simp only [stallS2, Bool.or_eq_false_iff, stallRealS2_eq hv] at h
  exact h.1

theorem noc1bufferReq_isSome : (s.noc1bufferReq cfg).isSome = s.noc1bufferReqVal cfg := by
  simp only [noc1bufferReq]
  split <;> simp_all

theorem noc1Op_of_reqVal (h : s.noc1ReqValS3 cfg = true) : ((s.s3.ctl cfg).noc1Op != .none) = true := by
  rw [bne_iff_ne]
  intro hn
  simp [noc1ReqValS3, hn] at h

/-! ## Where S2 and S3 go -/

theorem s3Next_of_stall (h : s.stallS3 cfg i = true) : s.s3Next cfg i = s.s3 := by simp [s3Next, h]

theorem s3Next_of_move (h : s.stallS3 cfg i = false) : s.s3Next cfg i = s.s3Latch cfg := by simp [s3Next, h]

theorem s2Next_of_move (h : s.stallS2 cfg i = false) : s.s2Next cfg i = s.s2Latch cfg i := by simp [s2Next, h]

theorem s2Next_of_hold (hv : s.s2.val = true) (h : s.stallS3 cfg i = true) : s.s2Next cfg i = s.s2 := by
  have hr : s.stallRealS2 cfg i = true := by rw [stallRealS2_eq hv, h]
  simp [s2Next, stallS2, hr]

theorem s2Next_of_beat (hv : s.s2.val = true) (h3 : s.stallS3 cfg i = false) (h : s.stallLoadS2 cfg = true) :
    s.s2Next cfg i = { s.s2 with cacheSubline := s.s2.cacheSubline + 1 } := by
  simp [s2Next, stallS2, stallRealS2, hv, h3, h]

/-- What S2 does in a cycle: it holds its request behind a stalled S3, sends a beat of a burst, or
moves on and takes what S1 has. -/
theorem s2_cases (cfg : Config) (s : State) (i : Input) :
    (s.s2.val = true ∧ s.stallS3 cfg i = true ∧ s.s2Next cfg i = s.s2) ∨
    (s.s2.val = true ∧ s.stallS3 cfg i = false ∧ s.stallLoadS2 cfg = true ∧
      s.s2Next cfg i = { s.s2 with cacheSubline := s.s2.cacheSubline + 1 }) ∨
    (s.stallS2 cfg i = false ∧ (s.s2.val = true → s.stallS3 cfg i = false) ∧
      s.s2Next cfg i = s.s2Latch cfg i) := by
  cases hv : s.s2.val with
  | false =>
      have h2 : s.stallS2 cfg i = false := by simp [stallS2, stallRealS2, stallLoadS2, hv]
      exact .inr (.inr ⟨h2, by simp, s2Next_of_move h2⟩)
  | true =>
      cases h3 : s.stallS3 cfg i with
      | true => exact .inl ⟨rfl, rfl, s2Next_of_hold hv h3⟩
      | false =>
          cases hl : s.stallLoadS2 cfg with
          | true => exact .inr (.inl ⟨rfl, rfl, rfl, s2Next_of_beat hv h3 hl⟩)
          | false =>
              have h2 : s.stallS2 cfg i = false := by simp [stallS2, stallRealS2, hl, h3]
              exact .inr (.inr ⟨h2, by simp, s2Next_of_move h2⟩)

/-! ## The source of the request in S1 -/

theorem preS1_source : (s.preS1 cfg).source = Predecode.source? s.fetchState s.noc2Val s.pcxVal := by
  simp only [preS1, predecode]
  cases Predecode.source? s.fetchState s.noc2Val s.pcxVal <;> simp

theorem preS1_of_pcx (h : (s.preS1 cfg).source = .pcx) :
    (s.preS1 cfg).reqtype = (Predecode.ofPcx cfg (s.pcx.getD {})).reqtype ∧
      (s.preS1 cfg).nonCacheable = (s.pcx.getD {}).nc := by
  rw [preS1_source] at h
  simp [preS1, predecode, h]

theorem preS1_of_noc2 (h : (s.preS1 cfg).source = .noc2) :
    (s.preS1 cfg).reqtype = (Predecode.ofNoc2 cfg s.fetchState (s.mshr (cfg.threadMask s.noc2.mshrIndex)) s.noc2).reqtype := by
  rw [preS1_source] at h
  simp [preS1, predecode, h]

theorem source?_pcx {fs : FetchState} {n p : Bool} (h : Predecode.source? fs n p = .pcx) :
    fs = .normal ∧ p = true ∨ fs = .pcxWritebackDone := by
  cases fs <;> cases n <;> cases p <;> simp_all [Predecode.source?]

/-- A request on NoC2 that the predecoder has no reading for: a data acknowledgement to an MSHR
that waits for none. -/
def Ignored (cfg : Config) (s : State) (i : Input) : Prop :=
  s.acceptS1 cfg i = true ∧ (s.preS1 cfg).source = .noc2 ∧ (s.preS1 cfg).reqtype = .ignore

instance : Decidable (Ignored cfg s i) := by unfold Ignored; infer_instance

theorem fromNoc2_of_acceptS1 (h : s.acceptS1 cfg i = true) (hs : (s.preS1 cfg).source = .noc2)
    (hi : ¬ Ignored cfg s i) : (s.decoderInS1 cfg).reqtype.fromNoc2 = true := by
  have hr : (s.preS1 cfg).reqtype ≠ .ignore := fun hr => hi ⟨h, hs, hr⟩
  simp only [decoderInS1, Predecode.decoderIn]
  rw [preS1_of_noc2 hs] at hr ⊢
  exact ofNoc2_fromNoc2 _ _ _ _ hr

theorem isTwoPass_of_noc2 (h : (s.preS1 cfg).source = .noc2) (dis : Bool) :
    FetchState.isTwoPass (s.decoderInS1 cfg).reqtype dis = false := by
  have hr : (s.decoderInS1 cfg).reqtype = (s.preS1 cfg).reqtype := rfl
  rw [preS1_of_noc2 h] at hr
  by_cases hi : (s.decoderInS1 cfg).reqtype = .ignore
  · rw [hi]; rfl
  · have hf := ofNoc2_fromNoc2 _ _ _ _ (hr ▸ hi)
    rw [← hr] at hf
    exact isTwoPass_noc2 hf dis

theorem fetchStateNext_of_acceptS1 (h : s.acceptS1 cfg i = true) :
    s.fetchStateNext cfg i = FetchState.next cfg (s.decoderInS1 cfg) := by
  simp [fetchStateNext, stallS1_of_acceptS1 h]

theorem preS1_of_invalid (h : (s.preS1 cfg).val = false) : s.fetchState = .normal ∧ (s.preS1 cfg).reqtype = .none := by
  have hs : Predecode.source? s.fetchState s.noc2Val s.pcxVal = .invalid := by
    simpa [Predecode.val, preS1_source] using h
  constructor
  · revert hs
    cases s.fetchState <;> simp [Predecode.source?]
  · simp [preS1, predecode, hs]

theorem fetchStateNext_of_not_acceptS1 (h : s.acceptS1 cfg i = false) : s.fetchStateNext cfg i = s.fetchState := by
  cases hv : (s.preS1 cfg).val with
  | true => simp_all [acceptS1, fetchStateNext]
  | false =>
      obtain ⟨hn, hr⟩ := preS1_of_invalid hv
      simp [fetchStateNext, hv, FetchState.next, decoderInS1, Predecode.decoderIn, hn, hr, FetchState.isTwoPass]

/-! ## Acknowledgements to the core -/

/-- The request of S2 is still to be acknowledged to the core. -/
def owesS2 (cfg : Config) (s : State) : Bool :=
  s.s2.val && ((s.s2.ctl cfg).pcxAckStage == .s2 || (s.s2.ctl cfg).pcxAckStage == .s3)

def owesS3 (cfg : Config) (s : State) : Bool := s.s3.val && (s.s3.ctl cfg).pcxAckStage == .s3

/-- The core's request, under the register that holds it, is one of two passes. -/
def pcxTwoPass (cfg : Config) (s : State) : Bool :=
  FetchState.isTwoPass (Predecode.ofPcx cfg (s.pcx.getD {})).reqtype (Predecode.isIntVecDis (s.pcx.getD {}).address)

/-- A request of the core that has passed S1 without its acknowledgement keeps the next one out, and
so does the second pass of a two-pass request. -/
structure Held (cfg : Config) (s : State) : Prop where
  second : s.fetchState = .pcxWritebackDone → s.pcxNew = false ∧ s.pcxTwoPass cfg = true
  owed : (s.owesS2 cfg || s.owesS3 cfg) = true → s.pcxNew = false ∧ s.fetchState ≠ .pcxWritebackDone
  once : (s.owesS2 cfg && s.owesS3 cfg) = false

theorem pcxTwoPass_eq (h : (s.preS1 cfg).source = .pcx) :
    FetchState.isTwoPass (s.decoderInS1 cfg).reqtype (s.decoderInS1 cfg).intVecDis = s.pcxTwoPass cfg := by
  simp only [decoderInS1, Predecode.decoderIn, (preS1_of_pcx h).1]
  rfl

theorem pcx_isSome_of_twoPass (h : s.pcxTwoPass cfg = true) : s.pcx.isSome = true := by
  cases hp : s.pcx with
  | some r => rfl
  | none => simp [pcxTwoPass, hp, Predecode.ofPcx, FetchState.isTwoPass] at h

theorem Held.free (hh : Held cfg s) (hs : (s.preS1 cfg).source = .pcx) :
    s.owesS2 cfg = false ∧ s.owesS3 cfg = false := by
  rw [← Bool.or_eq_false_iff]
  by_contra ho
  obtain ⟨hn, hf⟩ := hh.owed (by rwa [Bool.not_eq_false] at ho)
  rcases source?_pcx (preS1_source.symm.trans hs) with ⟨_, hp⟩ | hw
  · simp [pcxVal, hn] at hp
  · exact hf hw

theorem pcxAck_of_free (h2 : s.owesS2 cfg = false) (h3 : s.owesS3 cfg = false) :
    s.pcxAck cfg i = (s.acceptS1 cfg i && (s.ctlS1 cfg).pcxAckStage == .s1) := by
  simp only [owesS2, owesS3, Bool.and_eq_false_imp, Bool.or_eq_false_iff] at h2 h3
  have e2 : (s.s2.val && !s.stallRealS2 cfg i && (s.s2.ctl cfg).pcxAckStage == .s2) = false := by
    cases hv : s.s2.val <;> simp_all
  have e3 : (s.s3.val && !s.stallS3 cfg i && (s.s3.ctl cfg).pcxAckStage == .s3) = false := by
    cases hv : s.s3.val <;> simp_all
  simp only [pcxAck, e2, e3, Bool.or_false]

theorem source_of_acceptS1 (h : s.acceptS1 cfg i = true) : (s.preS1 cfg).source = .pcx ∨ (s.preS1 cfg).source = .noc2 := by
  have hv := val_of_acceptS1 h
  cases hs : (s.preS1 cfg).source <;> simp_all [Predecode.val]

theorem source_of_pcxAckStage (h : s.acceptS1 cfg i = true) (hi : ¬ Ignored cfg s i)
    (hc : (s.ctlS1 cfg).pcxAckStage ≠ .never) : (s.preS1 cfg).source = .pcx := by
  rcases source_of_acceptS1 h with hs | hs
  · exact hs
  · exact absurd (decoder_noc2 cfg _ (fromNoc2_of_acceptS1 h hs hi)).1 hc

theorem burst_mayBurst (h : s.burstS2 cfg = true) : (s.s2.ctl cfg).mayBurst = true := by
  simp only [burstS2, Bool.or_eq_true] at h
  simp only [Ctl.mayBurst, Bool.or_eq_true]
  rcases h with (((h | h) | h) | h) | h
  · left; left
    revert h
    unfold load64BS2
    cases (s.s2.ctl cfg).dcacheOp <;> simp
  · left; right
    revert h
    unfold noc3WbS2
    cases (s.s2.ctl cfg).noc1Op <;> simp
  · right
    revert h
    unfold l1InvS2 l1InvAnyS2
    cases (s.s2.ctl cfg).cpxOp <;> simp
  · left; left
    revert h
    unfold mshrWriteS2
    cases (s.s2.ctl cfg).dcacheOp <;> simp
  · right
    revert h
    unfold l1dLoadS2
    cases (s.s2.ctl cfg).cpxOp <;> simp

theorem owesS2_of_burst (h : s.burstS2 cfg = true) : s.owesS2 cfg = false := by
  by_contra ho
  simp only [owesS2, Bool.and_eq_true, Bool.not_eq_false] at ho
  have := decoder_pcxAck cfg _ ho.2
  exact absurd (burst_mayBurst h) (by simpa [S2.ctl] using this)

/-- The next state owes an acknowledgement for a request taken from S1, or for one already owed. -/
theorem owes_step (cfg : Config) (s : State) (i : Input) :
    ((s.step cfg i).owesS2 cfg = true → s.owesS2 cfg = true ∧ s.stallS3 cfg i = true ∨
      s.acceptS1 cfg i = true ∧ (s.stallS2 cfg i = false) ∧
        ((s.ctlS1 cfg).pcxAckStage = .s2 ∨ (s.ctlS1 cfg).pcxAckStage = .s3)) ∧
    ((s.step cfg i).owesS3 cfg = true → s.owesS3 cfg = true ∧ s.stallS3 cfg i = true ∨
      s.owesS2 cfg = true ∧ s.stallS3 cfg i = false ∧ (s.s2.ctl cfg).pcxAckStage = .s3) := by
  constructor
  · intro ho
    simp only [owesS2, step_s2, Bool.and_eq_true, Bool.or_eq_true, beq_iff_eq] at ho
    rcases s2_cases cfg s i with ⟨hv, h3, he⟩ | ⟨hv, h3, hl, he⟩ | ⟨h2, h3, he⟩
    · rw [he] at ho
      exact .inl ⟨by simp [owesS2, ho], h3⟩
    · have hb : s.burstS2 cfg = true := by simp only [stallLoadS2, Bool.and_eq_true] at hl; exact hl.1.2
      have hf := owesS2_of_burst hb
      rw [he] at ho
      simp only [owesS2, Bool.and_eq_false_imp, Bool.or_eq_false_iff, beq_eq_false_iff_ne] at hf
      rcases ho.2 with h | h
      · exact absurd h (hf ho.1).1
      · exact absurd h (hf ho.1).2
    · rw [he] at ho
      exact .inr ⟨ho.1, h2, ho.2⟩
  · intro ho
    simp only [owesS3, step_s3, Bool.and_eq_true, beq_iff_eq] at ho
    cases h3 : s.stallS3 cfg i with
    | true =>
        rw [s3Next_of_stall h3] at ho
        exact .inl ⟨by simp [owesS3, ho], rfl⟩
    | false =>
        rw [s3Next_of_move h3] at ho
        have ho' : s.s2.val = true ∧ (s.s2.ctl cfg).pcxAckStage = .s3 := ho
        exact .inr ⟨by simp [owesS2, ho'], rfl, ho'.2⟩

theorem pcxNext_of_not_ack (ha : s.pcxAck cfg i = false) (hp : s.pcx.isSome = true) : s.pcxNext cfg i = s.pcx := by
  simp [pcxNext, ha, Option.isNone_eq_false_iff.mpr hp]

theorem isNewNext_of_not_ack {headerAck isNew : Bool} (h : headerAck = true ∨ isNew = false) :
    isNewNext false headerAck isNew = false := by
  rcases h with rfl | rfl <;> simp [isNewNext]

/-- While an acknowledgement is owed, S1 takes nothing from the core. -/
theorem Held.noc2_of_owed (hh : Held cfg s) (hi : ¬ Ignored cfg s i)
    (ho : (s.owesS2 cfg || s.owesS3 cfg) = true) :
    (s.acceptS1 cfg i && (s.ctlS1 cfg).pcxAckStage == .s1) = false ∧
      s.fetchStateNext cfg i ≠ .pcxWritebackDone := by
  cases ha : s.acceptS1 cfg i with
  | false => exact ⟨rfl, by rw [fetchStateNext_of_not_acceptS1 ha]; exact (hh.owed ho).2⟩
  | true =>
      rcases source_of_acceptS1 ha with hs | hs
      · simp [hh.free hs] at ho
      · have hr := fromNoc2_of_acceptS1 ha hs hi
        refine ⟨by simp [ctlS1, (decoder_noc2 cfg _ hr).1], fun hw => ?_⟩
        rw [fetchStateNext_of_acceptS1 ha] at hw
        have := (next_pcxWritebackDone _ _ hw).2
        rw [isTwoPass_noc2 hr] at this
        cases this

theorem Held.second_step (hh : Held cfg s) (hi : ¬ Ignored cfg s i)
    (hw : s.fetchStateNext cfg i = .pcxWritebackDone) :
    (s.step cfg i).pcxNew = false ∧ (s.step cfg i).pcxTwoPass cfg = true ∧ (s.step cfg i).pcx = s.pcx := by
  suffices hk : s.pcxAck cfg i = false ∧ (s.pcxHeaderAck cfg i = true ∨ s.pcxNew = false) ∧ s.pcxTwoPass cfg = true by
    obtain ⟨hack, hnew, h2⟩ := hk
    have hp := pcxNext_of_not_ack hack (pcx_isSome_of_twoPass h2)
    refine ⟨by rw [step_pcxNew, hack, isNewNext_of_not_ack hnew], ?_, hp⟩
    simpa only [pcxTwoPass, step_pcx, hp] using h2
  cases ha : s.acceptS1 cfg i with
  | true =>
      rw [fetchStateNext_of_acceptS1 ha] at hw
      obtain ⟨hn, h2⟩ := next_pcxWritebackDone _ _ hw
      have hs : (s.preS1 cfg).source = .pcx := by
        refine (source_of_acceptS1 ha).resolve_right fun hs => ?_
        rw [isTwoPass_noc2 (fromNoc2_of_acceptS1 ha hs hi)] at h2
        cases h2
      obtain ⟨f2, f3⟩ := hh.free hs
      have hstage : (s.ctlS1 cfg).pcxAckStage = .never := decoder_twoPass cfg _ hn h2
      have hfn : s.fetchState = .normal := hn
      exact ⟨by rw [pcxAck_of_free f2 f3, hstage]; simp,
        .inl (by simp only [pcxHeaderAck, hs, ha, hfn]; rfl), by rw [← pcxTwoPass_eq hs]; exact h2⟩
  | false =>
      rw [fetchStateNext_of_not_acceptS1 ha] at hw
      obtain ⟨hn, h2⟩ := hh.second hw
      obtain ⟨f2, f3⟩ := hh.free (by rw [preS1_source, hw]; rfl)
      exact ⟨by rw [pcxAck_of_free f2 f3, ha]; rfl, .inr hn, h2⟩

theorem Held.pcxAck_of_owes (hh : Held cfg s) (hi : ¬ Ignored cfg s i)
    (ho : (s.owesS2 cfg || s.owesS3 cfg) = true)
    (h : s.stallS3 cfg i = true ∨ s.owesS2 cfg = true ∧ (s.s2.ctl cfg).pcxAckStage = .s3) :
    s.pcxAck cfg i = false := by
  rw [pcxAck, (hh.noc2_of_owed hi ho).1, Bool.false_or, Bool.or_eq_false_iff]
  rcases h with h | ⟨h2, hst⟩
  · refine ⟨?_, by simp [h]⟩
    cases hv : s.s2.val with
    | false => rfl
    | true => simp [stallRealS2_eq hv, h]
  · refine ⟨by simp [hst], ?_⟩
    have h3 : s.owesS3 cfg = false := by simpa [h2] using hh.once
    rw [owesS3] at h3
    cases hv : s.s3.val <;> simp_all

theorem Held.owed_step (hh : Held cfg s) (hi : ¬ Ignored cfg s i)
    (ho : ((s.step cfg i).owesS2 cfg || (s.step cfg i).owesS3 cfg) = true) :
    (s.step cfg i).pcxNew = false ∧ (s.step cfg i).fetchState ≠ .pcxWritebackDone := by
  obtain ⟨k2, k3⟩ := owes_step cfg s i
  have old : (s.owesS2 cfg || s.owesS3 cfg) = true →
      (s.stallS3 cfg i = true ∨ s.owesS2 cfg = true ∧ (s.s2.ctl cfg).pcxAckStage = .s3) →
      (s.step cfg i).pcxNew = false ∧ (s.step cfg i).fetchState ≠ .pcxWritebackDone := by
    intro ho hk
    refine ⟨?_, (hh.noc2_of_owed hi ho).2⟩
    rw [step_pcxNew, hh.pcxAck_of_owes hi ho hk, isNewNext_of_not_ack (.inr (hh.owed ho).1)]
  rw [Bool.or_eq_true] at ho
  rcases ho with ho | ho
  · rcases k2 ho with ⟨h2, h3⟩ | ⟨ha, h2, hst⟩
    · exact old (by simp [h2]) (.inl h3)
    · have hs : (s.preS1 cfg).source = .pcx := source_of_pcxAckStage ha hi (by rcases hst with h | h <;> simp [h])
      obtain ⟨f2, f3⟩ := hh.free hs
      have hack : s.pcxAck cfg i = false := by
        rw [pcxAck_of_free f2 f3]
        rcases hst with h | h <;> simp [h]
      have hw : s.fetchStateNext cfg i ≠ .pcxWritebackDone := by
        intro hw
        rw [fetchStateNext_of_acceptS1 ha] at hw
        obtain ⟨hn, htp⟩ := next_pcxWritebackDone _ _ hw
        have : (s.ctlS1 cfg).pcxAckStage = .never := decoder_twoPass cfg _ hn htp
        rcases hst with h | h <;> simp [h] at this
      refine ⟨?_, hw⟩
      rw [step_pcxNew, hack, isNewNext_of_not_ack]
      rcases source?_pcx (preS1_source.symm.trans hs) with ⟨hn, _⟩ | hw
      · exact .inl (by simp only [pcxHeaderAck, hs, ha, hn]; rfl)
      · exact .inr (hh.second hw).1
  · rcases k3 ho with ⟨h3, hst⟩ | ⟨h2, h3, hst⟩
    · exact old (by simp [h3]) (.inl hst)
    · exact old (by simp [h2]) (.inr ⟨h2, hst⟩)

theorem Held.step (hh : Held cfg s) (hi : ¬ Ignored cfg s i) : Held cfg (s.step cfg i) where
  second hw := ⟨(hh.second_step hi hw).1, (hh.second_step hi hw).2.1⟩
  owed := hh.owed_step hi
  once := by
    obtain ⟨k2, k3⟩ := owes_step cfg s i
    have hpcx : s.acceptS1 cfg i = true → ((s.ctlS1 cfg).pcxAckStage = .s2 ∨ (s.ctlS1 cfg).pcxAckStage = .s3) →
        s.owesS2 cfg = false ∧ s.owesS3 cfg = false := fun ha hst =>
      hh.free (source_of_pcxAckStage ha hi (by rcases hst with h | h <;> simp [h]))
    have hone := hh.once
    rw [Bool.and_eq_false_imp]
    intro h2
    by_contra h3
    rw [Bool.not_eq_false] at h3
    rcases k2 h2 with ⟨o2, hst⟩ | ⟨ha, _, hst⟩ <;> rcases k3 h3 with ⟨o3, _⟩ | ⟨o3, hm, _⟩
    · simp [o2, o3] at hone
    · simp [hst] at hm
    · simp [(hpcx ha hst).2] at o3
    · simp [(hpcx ha hst).1] at o3

theorem Init.held (h : Init s) : Held cfg s where
  second hw := by rw [h.fetchState] at hw; cases hw
  owed ho := by simp [owesS2, owesS3, h.s2, h.s3] at ho
  once := by simp [owesS2, h.s2]

end OpenPiton.L15.State
