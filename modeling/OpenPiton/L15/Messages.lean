import OpenPiton.L15.Beats

namespace OpenPiton.L15

namespace Noc2Msg

def forward (m : Noc2Msg) : Bool :=
  match m.reqtype with
  | .storeFwd | .invFwd | .loadFwd => true
  | _ => false

/-- A forward to the L1.5, not to the instruction cache. -/
def dataForward (m : Noc2Msg) : Bool := m.forward && !m.icacheType

def icacheForward (m : Noc2Msg) : Bool := m.forward && m.icacheType

end Noc2Msg

namespace Reqtype

/-- The fills, which take an eviction pass and a fill pass. -/
def isFill : Reqtype → Bool
  | .ackdtLd | .ackdtStIm | .ackdtLr => true
  | _ => false

/-- The acknowledgements that free the entry of their MSHR. -/
def isAck : Reqtype → Bool
  | .ackdtLd | .ackdtStIm | .ackdtLr | .ackdtStSm | .ackdtLdNc | .ackdtIfill | .ackAtomic | .ackWritethrough
  | .ackCmo => true
  | _ => false

def isForward : Reqtype → Bool
  | .invalidation | .downgrade => true
  | _ => false

end Reqtype

/-- The passes that go by the message of the pass before. -/
def FetchState.holdsNoc2 : FetchState → Bool
  | .inval2 | .inval3 | .inval4 | .noc2WritebackDone => true
  | _ => false

section Decoder

variable (cfg : Config) (d : DecoderIn)

theorem ofNoc2_isForward (fs : FetchState) (e : MshrEntry) (m : Noc2Msg) :
    (Predecode.ofNoc2 cfg fs e m).reqtype.isForward = m.dataForward := by
  simp only [Predecode.ofNoc2, Predecode.ackdtReqtype, Noc2Msg.dataForward, Noc2Msg.forward]
  cases m.reqtype with
  | storeFwd | invFwd | loadFwd => cases m.icacheType <;> rfl
  | nodataAck | ncStoreMemAck => cases m.mshrType <;> rfl
  | dataAck | ncLoadMemAck => simp only; split_ifs <;> rfl
  | interrupt | other => rfl

theorem ofNoc2_icacheInvalidation (fs : FetchState) (e : MshrEntry) (m : Noc2Msg) :
    (Predecode.ofNoc2 cfg fs e m).reqtype = .icacheInvalidation ↔ m.icacheForward = true := by
  simp only [Predecode.ofNoc2, Predecode.ackdtReqtype, Noc2Msg.icacheForward, Noc2Msg.forward]
  cases m.reqtype with
  | storeFwd | invFwd | loadFwd => cases m.icacheType <;> simp
  | nodataAck | ncStoreMemAck => cases m.mshrType <;> simp
  | dataAck | ncLoadMemAck => simp only; split_ifs <;> simp
  | interrupt | other => simp

theorem ofPcx_notNoc2 (pcx : PcxReq) : (Predecode.ofPcx cfg pcx).reqtype = .none ∨
    (Predecode.ofPcx cfg pcx).reqtype.fromNoc2 = false := by
  simp only [Predecode.ofPcx]
  cases pcx.rqtype with
  | cmo op => cases op <;> simp [Reqtype.fromNoc2]
  | load => simp only [Predecode.loadReqtype]; split_ifs <;> simp [Reqtype.fromNoc2]
  | store => simp only [Predecode.storeReqtype]; split_ifs <;> simp [Reqtype.fromNoc2]
  | ifill => simp only; split_ifs <;> simp [Reqtype.fromNoc2]
  | amo op => cases op <;> simp [Predecode.amoReqtype, Reqtype.fromNoc2]
  | interrupt | other | unknown => simp [Reqtype.fromNoc2]

theorem decoder_noc2AckStage (h : (decoder cfg d).noc2AckStage ≠ .never) :
    d.reqtype.fromNoc2 = true ∧ d.reqtype ≠ .none := by
  obtain ⟨fs, reqtype, last, dis, hit, broadcast⟩ := d
  cases reqtype with
  | writethrough => cases dis <;> cases fs <;> exact absurd rfl h
  | store => cases hit <;> exact absurd rfl h
  | pcxInterrupt => cases broadcast <;> exact absurd rfl h
  | loadNc | lineFlush | cas | swpLoadstub | amoLr | amo => cases fs <;> exact absurd rfl h
  | none | ignore | ifill | loadPrefetch | load | writeConfigReg | loadConfigReg | diagLoad | diagStore
  | hmcDiagLoad | hmcDiagStore | hmcFlush | icacheSelfInvalidation | dcacheSelfInvalidation | amoSc | cmo =>
      exact absurd rfl h
  | _ => exact ⟨rfl, by simp⟩

theorem decoder_noc2AckS2 (h : (decoder cfg d).noc2AckStage = .s2) : (decoder cfg d).mayBurst = false := by
  obtain ⟨fs, reqtype, last, dis, hit, broadcast⟩ := d
  revert h
  cases reqtype with
  | writethrough => cases dis <;> cases fs <;> intro h <;> cases h
  | store => cases hit <;> intro h <;> cases h
  | pcxInterrupt => cases broadcast <;> intro h <;> cases h
  | loadNc | lineFlush | cas | swpLoadstub | amoLr | amo | ackdtLd | ackdtStIm | ackdtLr =>
      cases fs <;> intro h <;> cases h
  | icacheInvalidation => cases last <;> intro h <;> cases h
  | invalidation | downgrade =>
      simp only [decoder, Decoder.invalidation, Decoder.downgrade]
      split_ifs <;> simp
  | hmcFill => exact fun _ => rfl
  | _ => intro h; cases h

theorem next_of_ackStage (h : (decoder cfg d).noc2AckStage = .s2 ∨ (decoder cfg d).noc2AckStage = .s3)
    (hp : d.fetchState = .normal ∨ d.fetchState = .noc2WritebackDone) : FetchState.next cfg d = .normal := by
  obtain ⟨fs, reqtype, last, dis, hit, broadcast⟩ := d
  rcases hp with hp | hp
  · simp only at hp
    subst hp
    have hn := (decoder_noc2AckStage cfg _ (by rcases h with h | h <;> rw [h] <;> simp)).1
    revert h
    cases reqtype with
    | invalidation | downgrade =>
        simp only [decoder, Decoder.invalidation, Decoder.downgrade, FetchState.next, FetchState.isTwoPass]
        cases cfg.parallelSrams <;> simp
    | ackdtLd | ackdtStIm | ackdtLr => rintro (h | h) <;> cases h
    | icacheInvalidation => cases last <;> rintro (h | h) <;> cases h
    | ackPrefetch | ackWritethrough | ackdtStSm | none => rintro (h | h) <;> cases h
    | hmcFill | ackdtIfill | ackdtLdNc | ackAtomic | ackCmo | l2Interrupt => exact fun _ => rfl
    | _ => cases hn
  · simp only at hp
    subst hp
    rfl

theorem next_holdsNoc2 (h : (FetchState.next cfg d).holdsNoc2 = true) :
    d.fetchState = .normal ∧ (d.reqtype.isForward = true ∨ d.reqtype.isFill = true) ∧
        (decoder cfg d).noc2AckStage = .never ∨
      d.fetchState = .inval2 ∨ d.fetchState = .inval3 := by
  obtain ⟨fs, reqtype, last, dis, hit, broadcast⟩ := d
  cases fs with
  | normal =>
      left
      revert h
      cases reqtype with
      | invalidation | downgrade =>
          simp only [decoder, Decoder.invalidation, Decoder.downgrade, FetchState.next, FetchState.isTwoPass]
          cases cfg.parallelSrams <;> simp [Reqtype.isForward, FetchState.holdsNoc2]
      | icacheInvalidation =>
          simp only [FetchState.next, FetchState.isTwoPass]
          cases cfg.icache64B <;> simp [FetchState.holdsNoc2]
      | ackdtLd | ackdtStIm | ackdtLr => exact fun _ => ⟨rfl, .inr rfl, rfl⟩
      | writethrough => cases dis <;> simp [FetchState.next, FetchState.isTwoPass, FetchState.holdsNoc2]
      | _ => simp [FetchState.next, FetchState.isTwoPass, FetchState.holdsNoc2]
  | inval2 => exact .inr (.inl rfl)
  | inval3 => exact .inr (.inr rfl)
  | _ => cases h

theorem decoder_forward_notS1 (h : d.reqtype.isForward = true) (hp : d.fetchState = .inval2 ∨ d.fetchState = .inval3) :
    (decoder cfg d).noc2AckStage ≠ .s1 := by
  obtain ⟨fs, reqtype, last, dis, hit, broadcast⟩ := d
  cases reqtype with
  | invalidation | downgrade => rcases hp with hp | hp <;> simp only at hp <;> subst hp <;> exact AckStage.noConfusion
  | _ => cases h

theorem decoder_forward_pass (h : d.reqtype.isForward = true)
    (hp : d.fetchState = .inval2 ∨ d.fetchState = .inval3 ∨ d.fetchState = .inval4) :
    (decoder cfg d).noc2AckStage = .never ∨ (decoder cfg d).noc2AckStage = .s1 := by
  obtain ⟨fs, reqtype, last, dis, hit, broadcast⟩ := d
  cases reqtype with
  | invalidation | downgrade =>
      rcases hp with hp | hp | hp <;> simp only at hp <;> subst hp
      · exact .inl rfl
      · exact .inl rfl
      · exact .inr rfl
  | _ => cases h

theorem decoder_icache_pass (h : d.reqtype = .icacheInvalidation) :
    (decoder cfg d).noc2AckStage = .never ∨ (decoder cfg d).noc2AckStage = .s1 := by
  obtain ⟨fs, reqtype, last, dis, hit, broadcast⟩ := d
  simp only at h
  subst h
  cases last
  · exact .inl rfl
  · exact .inr rfl

theorem next_of_isFill (hn : d.fetchState = .normal) (h : d.reqtype.isFill = true) :
    FetchState.next cfg d = .noc2WritebackDone := by
  obtain ⟨fs, reqtype, last, dis, hit, broadcast⟩ := d
  simp only at hn
  subst hn
  cases reqtype with
  | ackdtLd | ackdtStIm | ackdtLr => rfl
  | _ => cases h

theorem next_icacheInval2 (h : FetchState.next cfg d = .icacheInval2) :
    d.fetchState = .normal ∧ d.reqtype = .icacheInvalidation := by
  obtain ⟨fs, reqtype, last, dis, hit, broadcast⟩ := d
  cases fs with
  | normal =>
      refine ⟨rfl, ?_⟩
      revert h
      cases reqtype with
      | invalidation | downgrade =>
          simp only [FetchState.next, FetchState.isTwoPass]
          cases cfg.parallelSrams <;> simp
      | icacheInvalidation => exact fun _ => rfl
      | writethrough => cases dis <;> simp [FetchState.next, FetchState.isTwoPass]
      | _ => simp [FetchState.next, FetchState.isTwoPass]
  | _ => cases h

theorem next_noc2WritebackDone (h : FetchState.next cfg d = .noc2WritebackDone) :
    d.fetchState = .normal ∧ d.reqtype.isFill = true := by
  obtain ⟨fs, reqtype, last, dis, hit, broadcast⟩ := d
  cases fs with
  | normal =>
      refine ⟨rfl, ?_⟩
      revert h
      cases reqtype with
      | invalidation | downgrade =>
          simp only [FetchState.next, FetchState.isTwoPass]
          cases cfg.parallelSrams <;> simp
      | icacheInvalidation =>
          simp only [FetchState.next, FetchState.isTwoPass]
          cases cfg.icache64B <;> simp
      | writethrough => cases dis <;> simp [FetchState.next, FetchState.isTwoPass]
      | ackdtLd | ackdtStIm | ackdtLr => exact fun _ => rfl
      | _ => simp [FetchState.next, FetchState.isTwoPass]
  | _ => cases h

end Decoder

namespace State

variable {cfg : Config} {s : State} {i : Input}

/-! ## The message under way -/

/-- The request of S2 is to acknowledge the message of NoC2. -/
def owesNoc2S2 (cfg : Config) (s : State) : Bool :=
  s.s2.val && s.s2.cacheSubline == 0 &&
    ((s.s2.ctl cfg).noc2AckStage == .s2 || (s.s2.ctl cfg).noc2AckStage == .s3)

def owesNoc2S3 (cfg : Config) (s : State) : Bool :=
  s.s3.val && s.s3.cacheSubline == 0 && (s.s3.ctl cfg).noc2AckStage == .s3

/-- A message is acknowledged once and stays until its last pass: the later beats of a fill do not
acknowledge another, and none comes in under the second pass of an instruction-cache invalidation. -/
structure Single (cfg : Config) (s : State) (i : Input) : Prop where
  beats : s.s3.val = true → s.stallS3 cfg i = false → (s.s3.ctl cfg).noc2AckStage = .s3 →
    s.s3.cacheSubline ≠ 0 → s.noc2State ≠ .waitingAck
  icache : s.fetchState = .icacheInval2 → s.noc2State = .idle → s.acceptS1 cfg i = true ∨ i.noc2 = none

instance : Decidable (Single cfg s i) :=
  decidable_of_iff ((s.s3.val = true → s.stallS3 cfg i = false → (s.s3.ctl cfg).noc2AckStage = .s3 →
      s.s3.cacheSubline ≠ 0 → s.noc2State ≠ .waitingAck) ∧
    (s.fetchState = .icacheInval2 → s.noc2State = .idle → s.acceptS1 cfg i = true ∨ i.noc2 = none))
    ⟨fun ⟨a, b⟩ => ⟨a, b⟩, fun ⟨a, b⟩ => ⟨a, b⟩⟩

structure Awaited (cfg : Config) (s : State) : Prop where
  held : (s.fetchState.holdsNoc2 || s.owesNoc2S2 cfg || s.owesNoc2S3 cfg) = true →
    s.noc2State = .waitingAck ∧ s.noc2New = false
  rest : (s.owesNoc2S2 cfg || s.owesNoc2S3 cfg) = true → s.fetchState.holdsNoc2 = false ∧ s.fetchState ≠ .icacheInval2
  once : (s.owesNoc2S2 cfg && s.owesNoc2S3 cfg) = false
  forward : s.fetchState = .inval2 ∨ s.fetchState = .inval3 ∨ s.fetchState = .inval4 → s.noc2.dataForward = true
  icache : s.fetchState = .icacheInval2 → s.noc2.icacheForward = true

theorem source?_noc2 {fs : FetchState} {n p : Bool} (h : Predecode.source? fs n p = .noc2) :
    fs = .normal ∧ n = true ∨ fs.holdsNoc2 = true ∨ fs = .icacheInval2 := by
  cases fs <;> cases n <;> cases p <;> simp_all [Predecode.source?, FetchState.holdsNoc2]

theorem noc2_of_ackStage (hs : (s.ctlS1 cfg).noc2AckStage ≠ .never) : (s.preS1 cfg).source = .noc2 := by
  obtain ⟨hn, hne⟩ := decoder_noc2AckStage cfg _ hs
  rw [decoderInS1_reqtype] at hn hne
  cases hsrc : (s.preS1 cfg).source with
  | noc2 => rfl
  | invalid => exact absurd (preS1_of_invalid (by simp [Predecode.val, hsrc])).2 hne
  | pcx =>
      rw [(preS1_of_pcx hsrc).1] at hn hne
      rcases ofPcx_notNoc2 cfg (s.pcx.getD {}) with h | h
      · exact absurd h hne
      · rw [h] at hn; cases hn

theorem cacheSubline_of_ackS2 (hb : Beats cfg s) (hc : (s.s2.ctl cfg).noc2AckStage = .s2) :
    s.s2.cacheSubline = 0 := by
  by_contra h0
  have hm := burst_mayBurst (hb.follows h0).2.1
  rw [S2.ctl, decoder_noc2AckS2 cfg _ hc] at hm
  cases hm

namespace Awaited

/-- While a message waits for its acknowledgement, nothing but its own requests acknowledges it. -/
theorem noc2Ack_cases (hb : Beats cfg s) (hsg : Single cfg s i) (hw : s.noc2State = .waitingAck)
    (ha : s.noc2Ack cfg i = true) :
    s.acceptS1 cfg i = true ∧ (s.ctlS1 cfg).noc2AckStage = .s1 ∨
      s.owesNoc2S2 cfg = true ∧ s.stallS3 cfg i = false ∧ (s.s2.ctl cfg).noc2AckStage = .s2 ∨
      s.owesNoc2S3 cfg = true ∧ s.stallS3 cfg i = false := by
  simp only [noc2Ack, Bool.or_eq_true, Bool.and_eq_true, beq_iff_eq, Bool.not_eq_true'] at ha
  rcases ha with (⟨h1, h2⟩ | ⟨⟨hv, hr⟩, hc⟩) | ⟨⟨hv, hr⟩, hc⟩
  · exact .inl ⟨h1, h2⟩
  · rw [stallRealS2_eq hv] at hr
    exact .inr (.inl ⟨by simp [owesNoc2S2, hv, hc, cacheSubline_of_ackS2 hb hc], hr, hc⟩)
  · by_cases h0 : s.s3.cacheSubline = 0
    · exact .inr (.inr ⟨by simp [owesNoc2S3, hv, hc, h0], hr⟩)
    · exact absurd hw (hsg.beats hv hr hc h0)

/-- A message that no request in the pipeline has to acknowledge is acknowledged in S1 or not at all. -/
theorem noc2Ack_of_free (hb : Beats cfg s) (hsg : Single cfg s i) (hw : s.noc2State = .waitingAck)
    (ho : (s.owesNoc2S2 cfg || s.owesNoc2S3 cfg) = false) :
    s.noc2Ack cfg i = true → s.acceptS1 cfg i = true ∧ (s.ctlS1 cfg).noc2AckStage = .s1 := by
  intro ha
  rw [Bool.or_eq_false_iff] at ho
  rcases noc2Ack_cases hb hsg hw ha with h | ⟨h, -⟩ | ⟨h, -⟩
  · exact h
  · rw [ho.1] at h; cases h
  · rw [ho.2] at h; cases h

theorem free_of_noc2 (h : Awaited cfg s) (hs : (s.preS1 cfg).source = .noc2) :
    (s.owesNoc2S2 cfg || s.owesNoc2S3 cfg) = false := by
  by_contra ho
  rw [Bool.not_eq_false] at ho
  rw [preS1_source] at hs
  obtain ⟨hr1, hr2⟩ := h.rest ho
  rcases source?_noc2 hs with ⟨_, hn⟩ | hn | hn
  · obtain ⟨-, hnew⟩ := h.held (by
      rw [Bool.or_assoc, ho, Bool.or_true])
    simp [noc2Val, hnew] at hn
  · rw [hr1] at hn; cases hn
  · exact hr2 hn

/-- An acknowledgement owed in the next state was owed already, or is taken in from S1. -/
theorem owesNoc2_step (cfg : Config) (s : State) (i : Input) :
    ((s.step cfg i).owesNoc2S2 cfg = true → s.owesNoc2S2 cfg = true ∧ s.stallS3 cfg i = true ∨
      s.acceptS1 cfg i = true ∧ ((s.ctlS1 cfg).noc2AckStage = .s2 ∨ (s.ctlS1 cfg).noc2AckStage = .s3)) ∧
    ((s.step cfg i).owesNoc2S3 cfg = true → s.owesNoc2S3 cfg = true ∧ s.stallS3 cfg i = true ∨
      s.owesNoc2S2 cfg = true ∧ s.stallS3 cfg i = false ∧ (s.s2.ctl cfg).noc2AckStage = .s3) := by
  constructor
  · intro ho
    simp only [owesNoc2S2, step_s2, Bool.and_eq_true, Bool.or_eq_true, beq_iff_eq] at ho
    rcases s2_cases cfg s i with ⟨hv, h3, he⟩ | ⟨hv, h3, hl, he⟩ | ⟨h2, h3, he⟩
    · rw [he] at ho
      exact .inl ⟨by simpa [owesNoc2S2] using ho, h3⟩
    · rw [he] at ho
      exact absurd ho.1.2 (Nat.succ_ne_zero _)
    · rw [he] at ho
      exact .inr ⟨ho.1.1, ho.2⟩
  · intro ho
    simp only [owesNoc2S3, step_s3, Bool.and_eq_true, beq_iff_eq] at ho
    cases h3 : s.stallS3 cfg i with
    | true =>
        rw [s3Next_of_stall h3] at ho
        exact .inl ⟨by simpa [owesNoc2S3] using ho, rfl⟩
    | false =>
        rw [s3Next_of_move h3] at ho
        have ho' : (s.s2.val = true ∧ s.s2.cacheSubline = 0) ∧ (s.s2.ctl cfg).noc2AckStage = .s3 := ho
        exact .inr ⟨by simp [owesNoc2S2, ho'], rfl, ho'.2⟩

theorem wait_step (hw : s.noc2State = .waitingAck) (ha : s.noc2Ack cfg i = false)
    (hn : s.noc2HeaderAck cfg i = true ∨ s.noc2New = false) :
    (s.step cfg i).noc2State = .waitingAck ∧ (s.step cfg i).noc2New = false ∧ (s.step cfg i).noc2 = s.noc2 := by
  refine ⟨?_, ?_, ?_⟩
  · simp [State.step, noc2Next, hw, ha]
  · change isNewNext (s.noc2Ack cfg i) (s.noc2HeaderAck cfg i) s.noc2New = false
    rw [ha, isNewNext_of_not_ack hn]
  · simp [State.step, noc2Next, hw]

/-- A request taken from NoC2 and not acknowledged at once keeps its message waiting. -/
theorem wait_of_accept (h : Awaited cfg s) (hb : Beats cfg s) (hsg : Single cfg s i) (ha : s.acceptS1 cfg i = true)
    (hs : (s.preS1 cfg).source = .noc2) (hf : s.fetchState ≠ .icacheInval2) (hst : (s.ctlS1 cfg).noc2AckStage ≠ .s1) :
    (s.step cfg i).noc2State = .waitingAck ∧ (s.step cfg i).noc2New = false ∧ (s.step cfg i).noc2 = s.noc2 := by
  have hfree := h.free_of_noc2 hs
  have hwait : s.noc2State = .waitingAck ∧ (s.noc2HeaderAck cfg i = true ∨ s.noc2New = false) := by
    rcases source?_noc2 (preS1_source.symm.trans hs) with ⟨hn, hv⟩ | hh | hi
    · simp only [noc2Val, Bool.and_eq_true, beq_iff_eq] at hv
      exact ⟨hv.1, .inl (by simp only [noc2HeaderAck, hs, ha, hn]; rfl)⟩
    · obtain ⟨hw, hn⟩ := h.held (by rw [hh]; rfl)
      exact ⟨hw, .inr hn⟩
    · exact absurd hi hf
  refine wait_step hwait.1 ?_ hwait.2
  by_contra hack
  exact hst (noc2Ack_of_free hb hsg hwait.1 hfree (by simpa using hack)).2

theorem wait_of_owed (h : Awaited cfg s) (hb : Beats cfg s) (hsg : Single cfg s i)
    (ho : (s.owesNoc2S2 cfg || s.owesNoc2S3 cfg) = true)
    (hk : s.stallS3 cfg i = true ∨ s.owesNoc2S2 cfg = true ∧ (s.s2.ctl cfg).noc2AckStage = .s3) :
    (s.step cfg i).noc2State = .waitingAck ∧ (s.step cfg i).noc2New = false ∧ (s.step cfg i).noc2 = s.noc2 := by
  obtain ⟨hw, hn⟩ := h.held (by rw [Bool.or_assoc, ho, Bool.or_true])
  refine wait_step hw ?_ (.inr hn)
  by_contra hack
  rcases noc2Ack_cases hb hsg hw (by simpa using hack) with ⟨_, hc⟩ | ⟨_, h3, hc⟩ | ⟨o3, h3⟩
  · rw [h.free_of_noc2 (noc2_of_ackStage (by rw [hc]; simp))] at ho
    cases ho
  · rcases hk with hk | ⟨_, hk⟩
    · rw [hk] at h3; cases h3
    · rw [hk] at hc; cases hc
  · rcases hk with hk | ⟨o2, _⟩
    · rw [hk] at h3; cases h3
    · have := h.once
      rw [o2, o3] at this
      cases this

theorem dataForward_of_accept (hs : (s.preS1 cfg).source = .noc2) :
    (s.preS1 cfg).reqtype.isForward = s.noc2.dataForward := by
  rw [preS1_of_noc2 hs, ofNoc2_isForward]

theorem source_of_fromNoc2 (h : (s.preS1 cfg).reqtype.fromNoc2 = true) (hn : (s.preS1 cfg).reqtype ≠ .none) :
    (s.preS1 cfg).source = .noc2 := by
  cases hsrc : (s.preS1 cfg).source with
  | noc2 => rfl
  | invalid => exact absurd (preS1_of_invalid (by simp [Predecode.val, hsrc])).2 hn
  | pcx =>
      rw [(preS1_of_pcx hsrc).1] at h hn
      rcases ofPcx_notNoc2 cfg (s.pcx.getD {}) with h' | h'
      · exact absurd h' hn
      · rw [h'] at h; cases h

theorem source_of_isForward (h : (s.preS1 cfg).reqtype.isForward = true) : (s.preS1 cfg).source = .noc2 := by
  apply source_of_fromNoc2
  · revert h; cases (s.preS1 cfg).reqtype <;> simp [Reqtype.isForward, Reqtype.fromNoc2]
  · intro hn; rw [hn] at h; cases h

theorem source_of_isFill (h : (s.preS1 cfg).reqtype.isFill = true) : (s.preS1 cfg).source = .noc2 := by
  apply source_of_fromNoc2
  · revert h; cases (s.preS1 cfg).reqtype <;> simp [Reqtype.isFill, Reqtype.fromNoc2]
  · intro hn; rw [hn] at h; cases h

/-- The passes of a forward after the first, while its message is held. -/
theorem holds_step (h : Awaited cfg s) (hb : Beats cfg s) (hsg : Single cfg s i)
    (hh : (s.fetchStateNext cfg i).holdsNoc2 = true) :
    (s.step cfg i).noc2State = .waitingAck ∧ (s.step cfg i).noc2New = false ∧ (s.step cfg i).noc2 = s.noc2 := by
  cases ha : s.acceptS1 cfg i with
  | false =>
      rw [fetchStateNext_of_not_acceptS1 ha] at hh
      obtain ⟨hw, hn⟩ := h.held (by rw [hh]; rfl)
      have hfree : (s.owesNoc2S2 cfg || s.owesNoc2S3 cfg) = false := by
        by_contra ho
        have := (h.rest (by rwa [Bool.not_eq_false] at ho)).1
        rw [hh] at this
        cases this
      refine wait_step hw ?_ (.inr hn)
      by_contra hack
      have := (noc2Ack_of_free hb hsg hw hfree (by simpa using hack)).1
      rw [ha] at this
      cases this
  | true =>
      rw [fetchStateNext_of_acceptS1 ha] at hh
      rcases next_holdsNoc2 cfg _ hh with ⟨hn, hr, hst⟩ | hp
      · have hs : (s.preS1 cfg).source = .noc2 := by
          rcases hr with hr | hr
          · exact source_of_isForward hr
          · exact source_of_isFill hr
        refine h.wait_of_accept hb hsg ha hs ?_ (by rw [ctlS1, hst]; simp)
        rw [show s.fetchState = .normal from hn]
        simp
      · have hp' : s.fetchState = .inval2 ∨ s.fetchState = .inval3 := hp
        have hs : (s.preS1 cfg).source = .noc2 := by
          rw [preS1_source]
          rcases hp' with hp' | hp' <;> rw [hp'] <;> rfl
        refine h.wait_of_accept hb hsg ha hs (by rcases hp' with hp' | hp' <;> rw [hp'] <;> simp) ?_
        have hfw : (s.decoderInS1 cfg).reqtype.isForward = true := by
          rw [decoderInS1_reqtype, dataForward_of_accept hs]
          exact h.forward (by rcases hp' with hp' | hp' <;> simp [hp'])
        rw [ctlS1]
        exact decoder_forward_notS1 cfg _ hfw hp

theorem rest_of_owed (h : Awaited cfg s) (ho : (s.owesNoc2S2 cfg || s.owesNoc2S3 cfg) = true) :
    (s.fetchStateNext cfg i).holdsNoc2 = false ∧ s.fetchStateNext cfg i ≠ .icacheInval2 := by
  have hno : (s.preS1 cfg).source ≠ .noc2 := by
    intro hs
    rw [h.free_of_noc2 hs] at ho
    cases ho
  obtain ⟨hr1, hr2⟩ := h.rest ho
  cases ha : s.acceptS1 cfg i with
  | false =>
      rw [fetchStateNext_of_not_acceptS1 ha]
      exact ⟨hr1, hr2⟩
  | true =>
      rw [fetchStateNext_of_acceptS1 ha]
      constructor
      · by_contra hh
        rcases next_holdsNoc2 cfg _ (by simpa using hh) with ⟨-, hr | hr, -⟩ | hp | hp
        · exact hno (source_of_isForward hr)
        · exact hno (source_of_isFill hr)
        · have hp' : s.fetchState = .inval2 := hp
          rw [hp'] at hr1
          cases hr1
        · have hp' : s.fetchState = .inval3 := hp
          rw [hp'] at hr1
          cases hr1
      · intro hi
        have hr := (next_icacheInval2 cfg _ hi).2
        rw [decoderInS1_reqtype] at hr
        exact hno (source_of_fromNoc2 (by rw [hr]; rfl) (by rw [hr]; simp))

theorem owed_step (h : Awaited cfg s) (hb : Beats cfg s) (hsg : Single cfg s i)
    (ho : ((s.step cfg i).owesNoc2S2 cfg || (s.step cfg i).owesNoc2S3 cfg) = true) :
    ((s.step cfg i).noc2State = .waitingAck ∧ (s.step cfg i).noc2New = false ∧ (s.step cfg i).noc2 = s.noc2) ∧
      (s.fetchStateNext cfg i).holdsNoc2 = false ∧ s.fetchStateNext cfg i ≠ .icacheInval2 := by
  have old : (s.owesNoc2S2 cfg || s.owesNoc2S3 cfg) = true →
      (s.stallS3 cfg i = true ∨ s.owesNoc2S2 cfg = true ∧ (s.s2.ctl cfg).noc2AckStage = .s3) →
      ((s.step cfg i).noc2State = .waitingAck ∧ (s.step cfg i).noc2New = false ∧ (s.step cfg i).noc2 = s.noc2) ∧
        (s.fetchStateNext cfg i).holdsNoc2 = false ∧ s.fetchStateNext cfg i ≠ .icacheInval2 := by
    intro ho hk
    exact ⟨h.wait_of_owed hb hsg ho hk, h.rest_of_owed ho⟩
  obtain ⟨k2, k3⟩ := owesNoc2_step cfg s i
  rw [Bool.or_eq_true] at ho
  rcases ho with ho | ho
  · rcases k2 ho with ⟨o2, h3⟩ | ⟨ha, hst⟩
    · exact old (by rw [o2]; rfl) (.inl h3)
    · have hs : (s.preS1 cfg).source = .noc2 := noc2_of_ackStage (by rcases hst with h | h <;> rw [h] <;> simp)
      have hne1 : (s.ctlS1 cfg).noc2AckStage ≠ .s1 := by rcases hst with h | h <;> rw [h] <;> simp
      have hp : s.fetchState = .normal ∨ s.fetchState = .noc2WritebackDone := by
        rcases source?_noc2 (preS1_source.symm.trans hs) with ⟨hn, -⟩ | hh | hi
        · exact .inl hn
        · have hfw : s.fetchState ≠ .noc2WritebackDone → False := by
            intro hne
            have hp : s.fetchState = .inval2 ∨ s.fetchState = .inval3 ∨ s.fetchState = .inval4 := by
              revert hh hne
              cases s.fetchState <;> simp [FetchState.holdsNoc2]
            have hr : (s.decoderInS1 cfg).reqtype.isForward = true := by
              rw [decoderInS1_reqtype, dataForward_of_accept hs]
              exact h.forward hp
            have := decoder_forward_pass cfg (s.decoderInS1 cfg) hr hp
            rcases hst with hst | hst <;> rw [ctlS1] at hst <;> simp [hst] at this
          exact .inr (by by_contra hne; exact hfw hne)
        · exfalso
          have hr : (s.decoderInS1 cfg).reqtype = .icacheInvalidation := by
            rw [decoderInS1_reqtype, preS1_of_noc2 hs, ofNoc2_icacheInvalidation]
            exact h.icache hi
          have := decoder_icache_pass cfg (s.decoderInS1 cfg) hr
          rcases hst with hst | hst <;> rw [ctlS1] at hst <;> simp [hst] at this
      have hne : s.fetchState ≠ .icacheInval2 := by rcases hp with hp | hp <;> rw [hp] <;> simp
      have hnext := next_of_ackStage cfg _ hst hp
      refine ⟨h.wait_of_accept hb hsg ha hs hne hne1, ?_⟩
      rw [fetchStateNext_of_acceptS1 ha, hnext]
      exact ⟨rfl, by simp⟩
  · rcases k3 ho with ⟨o3, h3⟩ | ⟨o2, h3, hst⟩
    · exact old (by rw [o3, Bool.or_true]) (.inl h3)
    · exact old (by rw [o2]; rfl) (.inr ⟨o2, hst⟩)

theorem once_step (h : Awaited cfg s) :
    ((s.step cfg i).owesNoc2S2 cfg && (s.step cfg i).owesNoc2S3 cfg) = false := by
  obtain ⟨k2, k3⟩ := owesNoc2_step cfg s i
  rw [Bool.and_eq_false_imp]
  intro h2
  by_contra h3
  rw [Bool.not_eq_false] at h3
  have hone := h.once
  rcases k2 h2 with ⟨o2, hst⟩ | ⟨ha, hst⟩
  · rcases k3 h3 with ⟨o3, _⟩ | ⟨_, hm, _⟩
    · rw [o2, o3] at hone
      cases hone
    · rw [hst] at hm
      cases hm
  · have hf := h.free_of_noc2 (noc2_of_ackStage (by rcases hst with h | h <;> rw [h] <;> simp))
    rw [Bool.or_eq_false_iff] at hf
    rcases k3 h3 with ⟨o3, _⟩ | ⟨o2, _⟩
    · rw [hf.2] at o3
      cases o3
    · rw [hf.1] at o2
      cases o2

theorem forward_step (h : Awaited cfg s) (hb : Beats cfg s) (hsg : Single cfg s i)
    (hf : s.fetchStateNext cfg i = .inval2 ∨ s.fetchStateNext cfg i = .inval3 ∨ s.fetchStateNext cfg i = .inval4) :
    (s.step cfg i).noc2.dataForward = true := by
  have hh : (s.fetchStateNext cfg i).holdsNoc2 = true := by rcases hf with hf | hf | hf <;> rw [hf] <;> rfl
  rw [(h.holds_step hb hsg hh).2.2]
  cases ha : s.acceptS1 cfg i with
  | false =>
      rw [fetchStateNext_of_not_acceptS1 ha] at hf
      exact h.forward hf
  | true =>
      rw [fetchStateNext_of_acceptS1 ha] at hf hh
      rcases next_holdsNoc2 cfg _ hh with ⟨hn, hr | hr, -⟩ | hp
      · rw [← dataForward_of_accept (source_of_isForward hr)]
        exact hr
      · exfalso
        have := next_of_isFill cfg (s.decoderInS1 cfg) hn hr
        rw [this] at hf
        simp at hf
      · exact h.forward (hp.imp_right .inl)

theorem keep_icache (hsg : Single cfg s i) (hf : s.fetchStateNext cfg i = .icacheInval2) :
    (s.step cfg i).noc2 = s.noc2 := by
  change (s.noc2Next cfg i).1 = s.noc2
  cases ha : s.acceptS1 cfg i with
  | false =>
      rw [fetchStateNext_of_not_acceptS1 ha] at hf
      cases hs : s.noc2State with
      | idle =>
          rcases hsg.icache hf hs with hacc | hnone
          · rw [ha] at hacc
            cases hacc
          · simp [noc2Next, hs, hnone]
      | waitingAck => simp [noc2Next, hs]
      | waitingAckRst => simp [noc2Next, hs]
  | true =>
      rw [fetchStateNext_of_acceptS1 ha] at hf
      obtain ⟨hn, hr⟩ := next_icacheInval2 cfg _ hf
      rw [decoderInS1_reqtype] at hr
      have hs : (s.preS1 cfg).source = .noc2 := source_of_fromNoc2 (by rw [hr]; rfl) (by rw [hr]; simp)
      rcases source?_noc2 (preS1_source.symm.trans hs) with ⟨-, hv⟩ | hh | hh
      · simp only [noc2Val, Bool.and_eq_true, beq_iff_eq] at hv
        simp [noc2Next, hv.1]
      · rw [show s.fetchState = .normal from hn] at hh
        cases hh
      · rw [show s.fetchState = .normal from hn] at hh
        cases hh

theorem icache_step (h : Awaited cfg s) (hsg : Single cfg s i) (hf : s.fetchStateNext cfg i = .icacheInval2) :
    (s.step cfg i).noc2.icacheForward = true := by
  rw [keep_icache hsg hf]
  cases ha : s.acceptS1 cfg i with
  | false =>
      rw [fetchStateNext_of_not_acceptS1 ha] at hf
      exact h.icache hf
  | true =>
      rw [fetchStateNext_of_acceptS1 ha] at hf
      have hr := (next_icacheInval2 cfg _ hf).2
      rw [decoderInS1_reqtype] at hr
      have hs : (s.preS1 cfg).source = .noc2 := source_of_fromNoc2 (by rw [hr]; rfl) (by rw [hr]; simp)
      rw [preS1_of_noc2 hs, ofNoc2_icacheInvalidation] at hr
      exact hr

theorem step (h : Awaited cfg s) (hb : Beats cfg s) (hsg : Single cfg s i) : Awaited cfg (s.step cfg i) where
  held hh := by
    rw [Bool.or_assoc, Bool.or_eq_true] at hh
    rcases hh with hh | ho
    · obtain ⟨hw, hn, -⟩ := h.holds_step hb hsg hh
      exact ⟨hw, hn⟩
    · obtain ⟨hw, hn, -⟩ := (h.owed_step hb hsg ho).1
      exact ⟨hw, hn⟩
  rest ho := (h.owed_step hb hsg ho).2
  once := h.once_step
  forward hf := h.forward_step hb hsg hf
  icache hf := h.icache_step hsg hf

end Awaited

theorem Init.awaited (h : Init s) : Awaited cfg s := by
  constructor <;> simp [owesNoc2S2, owesNoc2S3, h.s2, h.s3, h.fetchState, FetchState.holdsNoc2]

end State

end OpenPiton.L15
