import OpenPiton.L15.Messages
import OpenPiton.Home.Node

namespace OpenPiton.Home

open L15

/-- The answer to a refill. -/
def isRefill (m : Noc2Msg) : Bool := m.hmcFill && (m.reqtype == .dataAck || m.reqtype == .ncLoadMemAck)

section Decoder

variable (cfg : Config) (d : DecoderIn)

theorem ofNoc2_hmcFill (fs : FetchState) (e : MshrEntry) (m : Noc2Msg) :
    (Predecode.ofNoc2 cfg fs e m).reqtype = .hmcFill ↔ isRefill m = true := by
  simp only [Predecode.ofNoc2, Predecode.ackdtReqtype, isRefill]
  cases hr : m.reqtype with
  | storeFwd | invFwd | loadFwd => cases m.icacheType <;> simp
  | nodataAck | ncStoreMemAck => cases m.mshrType <;> simp
  | dataAck | ncLoadMemAck => cases m.hmcFill <;> simp only <;> split_ifs <;> simp_all
  | interrupt | other => simp

/-- The operations on the home map cache itself belong to one request type each. -/
theorem decoderCsmOp_hmc :
    (decoderCsmOp d = .hmcFill ↔ d.reqtype = .hmcFill) ∧
      (decoderCsmOp d = .hmcDiagStore → d.reqtype = .hmcDiagStore) ∧
      (decoderCsmOp d = .hmcDiagLoad → d.reqtype = .hmcDiagLoad) ∧
      (decoderCsmOp d = .hmcFlush → d.reqtype = .hmcFlush) := by
  obtain ⟨fs, reqtype, last, dis, hit, broadcast⟩ := d
  cases reqtype with
  | writethrough => cases dis <;> cases fs <;> simp [decoderCsmOp]
  | store => cases hit <;> simp [decoderCsmOp]
  | loadNc | lineFlush | cas | swpLoadstub | amoLr | amo | ackdtLd | ackdtStIm | ackdtLr =>
      cases fs <;> simp [decoderCsmOp]
  | _ => simp [decoderCsmOp]

/-- What a request that looks up its home has on the other ports of S3. -/
theorem decoder_reads :
    (decoderCsmOp d = .readGhid → (decoder cfg d).cpxOp = .none ∧ (decoder cfg d).noc3Op = .none) ∧
    (decoderCsmOp d = .readGhidIfTagcheckSi →
      (decoder cfg d).cpxOp = .stAckIfTagcheckMeWithPossibleInval ∧ (decoder cfg d).noc3Op = .none) ∧
    (decoderCsmOp d = .readGhidIfTagcheckMiss →
      (decoder cfg d).cpxOp = .ldResponseIfTagcheckMesFromDcache ∧ (decoder cfg d).noc3Op = .none) := by
  obtain ⟨fs, reqtype, last, dis, hit, broadcast⟩ := d
  cases reqtype with
  | writethrough => cases dis <;> cases fs <;> simp [decoderCsmOp, decoder, Decoder.writethrough]
  | store => cases hit <;> simp [decoderCsmOp, decoder, Decoder.store]
  | loadNc | lineFlush | cas | swpLoadstub | amoLr | amo | ackdtLd | ackdtStIm | ackdtLr =>
      cases fs <;> simp [decoderCsmOp, decoder, Decoder.loadNc, Decoder.atomic]
  | _ => simp [decoderCsmOp, decoder]

theorem ofPcx_address (pcx : PcxReq) : (Predecode.ofPcx cfg pcx).address = pcx.address := by
  simp only [Predecode.ofPcx]
  cases pcx.rqtype with
  | cmo op => cases op <;> rfl
  | _ => rfl

/-- The diagnostic accesses and the flushes of the home map cache go by the type of their address. -/
theorem ofPcx_addressType (pcx : PcxReq) :
    ((Predecode.ofPcx cfg pcx).reqtype = .hmcDiagLoad ∨ (Predecode.ofPcx cfg pcx).reqtype = .hmcDiagStore →
      Predecode.addressType pcx.address = .hmcAccess) ∧
    ((Predecode.ofPcx cfg pcx).reqtype = .hmcFlush → Predecode.addressType pcx.address = .hmcFlush) := by
  simp only [Predecode.ofPcx]
  cases pcx.rqtype with
  | cmo op => cases op <;> simp
  | load => simp only [Predecode.loadReqtype]; split_ifs <;> simp_all
  | store => simp only [Predecode.storeReqtype]; split_ifs <;> simp_all
  | ifill => simp only; split_ifs <;> simp
  | amo op => cases op <;> simp [Predecode.amoReqtype]
  | interrupt | other | unknown => simp

end Decoder

/-- S3 has a request that looks up its home because the L1.5 cannot answer it. -/
def ReadsS3 (s3 : S3) : Prop :=
  match decoderCsmOp s3.d with
  | .readGhid => True
  | .readGhidIfTagcheckSi => s3.tagcheckState.me = false
  | .readGhidIfTagcheckMiss => s3.tagcheckState.mes = false
  | _ => False

instance (s3 : S3) : Decidable (ReadsS3 s3) := by
  unfold ReadsS3
  cases decoderCsmOp s3.d <;> infer_instance

theorem stallS3_of_quiet {cfg : Config} {s : State} {i : Input} (hcpx : s.cpxReqS3 cfg = none)
    (hnoc3 : (s.s3.ctl cfg).noc3Op = .none) : s.stallS3 cfg i = false := by
  simp [State.stallS3, State.stallForCpxS3, State.stallForNoc3S3, State.cpxencoderVal, State.noc3encoderReqVal,
    State.noc3ReqValS3, hcpx, hnoc3]

theorem stallS3_of_reads {cfg : Config} {s : State} {i : Input} (h : ReadsS3 s.s3) : s.stallS3 cfg i = false := by
  obtain ⟨hread, hsi, hmiss⟩ := decoder_reads cfg s.s3.d
  have hquiet : s.cpxReqS3 cfg = none ∧ (s.s3.ctl cfg).noc3Op = .none := by
    rw [ReadsS3] at h
    simp only [State.cpxReqS3, S3.ctl]
    cases hop : decoderCsmOp s.s3.d with
    | readGhid => simp [hread hop]
    | readGhidIfTagcheckSi =>
        rw [hop] at h
        simp only at h
        simp [hsi hop, h]
    | readGhidIfTagcheckMiss =>
        rw [hop] at h
        simp only at h
        simp [hmiss hop, h]
    | _ => rw [hop] at h; exact h.elim
  exact stallS3_of_quiet hquiet.1 hquiet.2

theorem stallS3_of_hmcFill {cfg : Config} {s : State} {i : Input} (h : s.s3.d.reqtype = .hmcFill) :
    s.stallS3 cfg i = false := by
  have hctl : s.s3.ctl cfg = { noc2AckStage := .s2 } := by
    simp only [S3.ctl, decoder, h]
  exact stallS3_of_quiet (by simp [State.cpxReqS3, hctl]) (by rw [hctl])

namespace Node

variable {cfg : Config} {csm : CsmConfig} {n : Node} {i : NodeInput} {j : Input}

/-- How the request in S2 and S3 and the one `l15_csm` has go together. -/
structure Coupled (cfg : Config) (n : Node) : Prop where
  diag : n.l15.s2.val = true → n.l15.s2.d.reqtype = .hmcDiagLoad ∨ n.l15.s2.d.reqtype = .hmcDiagStore →
    Predecode.addressType n.l15.s2.address = .hmcAccess
  flush : n.l15.s2.val = true → n.l15.s2.d.reqtype = .hmcFlush →
    Predecode.addressType n.l15.s2.address = .hmcFlush
  reads : n.csm.s3.rdEn = true → n.csm.s3.diagEn = false → n.csm.s3.flushEn = false → ReadsS3 n.l15.s3
  writes : n.csm.s3.wrEn = true → n.csm.s3.diagEn = false →
    n.l15.s3.d.reqtype = .hmcFill ∧ n.csm.s3.flushEn = false

theorem csmReqS2_of_hmcFill (h : n.l15.s2.d.reqtype = .hmcFill) :
    n.csmReqS2 cfg csm j =
      { val := !n.l15.stallS2 cfg j && n.l15.s2.val
        write := true
        ticket := csmMshrid n.l15.noc2
        page := n.csmPcxDataS2
        data := hmtLine (n.l15.noc2.word 0) (n.l15.noc2.word 1) } := by
  have hop : n.csmOpS2 = .hmcFill := (decoderCsmOp_hmc _).1.mpr h
  simp [csmReqS2, csmReqOpS2, hop]

theorem Coupled.hmcFill_of_wrEn (hc : Coupled cfg n) (hwr : (n.csmReqS2 cfg csm j).wrEn = true)
    (hdiag : (n.csmReqS2 cfg csm j).diagEn = false) : n.l15.s2.d.reqtype = .hmcFill := by
  obtain ⟨hfill, hstore, -, -⟩ := decoderCsmOp_hmc n.l15.s2.d
  simp only [CsmReq.wrEn, Bool.and_eq_true] at hwr
  obtain ⟨hv, hwr⟩ := hwr
  simp only [CsmReq.diagEn, hv, Bool.true_and] at hdiag
  simp only [csmReqS2, csmReqOpS2, Bool.and_eq_true] at hv hwr hdiag
  cases hop : n.csmOpS2 with
  | hmcFill => exact hfill.mp hop
  | hmcDiagStore =>
      rw [hop] at hdiag
      rw [hc.diag hv.2 (.inr (hstore hop))] at hdiag
      cases hdiag
  | evictIfLruM | evictIfFlushM | evictIfM => rw [hop] at hwr; revert hwr; simp only; split_ifs <;> simp
  | _ => rw [hop] at hwr; cases hwr

theorem Coupled.writeVal_iff (hc : Coupled cfg n) : (n.csmReqS2 cfg csm j).writeVal = true ↔
    n.l15.s2.val = true ∧ n.l15.s2.d.reqtype = .hmcFill ∧ n.l15.stallS2 cfg j = false := by
  by_cases h : n.l15.s2.d.reqtype = .hmcFill
  · have hmem : Predecode.addressType 0 = .memory := rfl
    simp [CsmReq.writeVal, CsmReq.wrEn, CsmReq.diagEn, CsmReq.flushEn, csmReqS2_of_hmcFill h, hmem, h, and_comm]
  · simp only [h, false_and, and_false, iff_false]
    intro hw
    simp only [CsmReq.writeVal, Bool.and_eq_true, Bool.not_eq_true'] at hw
    exact h (hc.hmcFill_of_wrEn hw.1.1.2 hw.1.2)

theorem Coupled.reads_of_rdEn (hc : Coupled cfg n) (hrtl : csm.rtlCsm = true)
    (hrd : (n.csmReqS2 cfg csm j).rdEn = true) (hdiag : (n.csmReqS2 cfg csm j).diagEn = false)
    (hflush : (n.csmReqS2 cfg csm j).flushEn = false) : ReadsS3 (n.l15.s3Latch cfg) := by
  obtain ⟨-, hstore, hload, hfl⟩ := decoderCsmOp_hmc n.l15.s2.d
  simp only [CsmReq.rdEn, Bool.and_eq_true, Bool.not_eq_true'] at hrd
  obtain ⟨⟨hv, hwr⟩, -⟩ := hrd
  simp only [CsmReq.diagEn, CsmReq.flushEn, hv, Bool.true_and] at hdiag hflush
  simp only [csmReqS2, csmReqOpS2] at hv hwr hdiag hflush
  have hd : (n.l15.s3Latch cfg).d = n.l15.s2.d := rfl
  rw [ReadsS3, hd]
  have hop' : n.csmOpS2 = decoderCsmOp n.l15.s2.d := rfl
  cases hop : n.csmOpS2 with
  | readGhid => rw [← hop', hop]; trivial
  | readGhidIfTagcheckSi =>
      rw [hop] at hv
      simp only [Bool.and_eq_true, Bool.not_eq_true'] at hv
      rw [← hop', hop]
      exact hv.1.1
  | readGhidIfTagcheckMiss =>
      rw [hop] at hv
      simp only [Bool.and_eq_true, Bool.not_eq_true'] at hv
      rw [← hop', hop]
      exact hv.1.1
  | hmcDiagLoad =>
      rw [hop] at hv hdiag
      simp only [Bool.and_eq_true] at hv
      rw [hc.diag hv.2 (.inl (hload hop))] at hdiag
      cases hdiag
  | hmcFlush =>
      rw [hop] at hv hflush
      simp only [Bool.and_eq_true] at hv
      rw [hc.flush hv.2 (hfl hop)] at hflush
      cases hflush
  | hmcFill | hmcDiagStore => rw [hop] at hwr; cases hwr
  | none | evictIfLruM | evictIfFlushM | evictIfM => rw [hop] at hv; simp [hrtl] at hv

theorem address_of_accept (ha : n.l15.acceptS1 cfg j = true) (hn : ∀ fs e m,
    (Predecode.ofNoc2 cfg fs e m).reqtype ≠ (n.l15.decoderInS1 cfg).reqtype) :
    (n.l15.decoderInS1 cfg).reqtype = (Predecode.ofPcx cfg (n.l15.pcx.getD {})).reqtype ∧
      (n.l15.preS1 cfg).address = (n.l15.pcx.getD {}).address := by
  rcases State.source_of_acceptS1 ha with hs | hs
  · refine ⟨(State.preS1_of_pcx hs).1, ?_⟩
    rw [State.preS1_source] at hs
    rw [← ofPcx_address cfg]
    simp [State.preS1, predecode, hs]
  · exact absurd (State.preS1_of_noc2 hs).symm (hn _ _ _)

theorem Coupled.step (hc : Coupled cfg n) (hrtl : csm.rtlCsm = true) : Coupled cfg (n.step cfg csm i) := by
  have hnoc2 : ∀ fs e m, (Predecode.ofNoc2 cfg fs e m).reqtype ≠ .hmcDiagLoad ∧
      (Predecode.ofNoc2 cfg fs e m).reqtype ≠ .hmcDiagStore ∧ (Predecode.ofNoc2 cfg fs e m).reqtype ≠ .hmcFlush := by
    intro fs e m
    by_cases hi : (Predecode.ofNoc2 cfg fs e m).reqtype = .ignore
    · simp [hi]
    · have := ofNoc2_fromNoc2 cfg fs e m hi
      refine ⟨?_, ?_, ?_⟩ <;> intro hr <;> rw [hr] at this <;> cases this
  have hs2 : (n.step cfg csm i).l15.s2 = n.l15.s2Next cfg (n.gated csm i) := rfl
  constructor
  · rw [hs2]
    intro hv hr
    rcases State.s2_cases cfg n.l15 (n.gated csm i) with ⟨hv', -, he⟩ | ⟨hv', -, -, he⟩ | ⟨-, -, he⟩
    · rw [he] at hr ⊢
      exact hc.diag hv' hr
    · rw [he] at hr ⊢
      exact hc.diag hv' hr
    · rw [he] at hv hr ⊢
      change (n.l15.decoderInS1 cfg).reqtype = _ ∨ (n.l15.decoderInS1 cfg).reqtype = _ at hr
      obtain ⟨hreq, haddr⟩ := address_of_accept hv fun fs e m h => by
        rcases hr with hr | hr <;> rw [hr] at h <;> simp [hnoc2] at h
      rw [hreq] at hr
      exact (congrArg Predecode.addressType haddr).trans ((ofPcx_addressType cfg _).1 hr)
  · rw [hs2]
    intro hv hr
    rcases State.s2_cases cfg n.l15 (n.gated csm i) with ⟨hv', -, he⟩ | ⟨hv', -, -, he⟩ | ⟨-, -, he⟩
    · rw [he] at hr ⊢
      exact hc.flush hv' hr
    · rw [he] at hr ⊢
      exact hc.flush hv' hr
    · rw [he] at hv hr ⊢
      change (n.l15.decoderInS1 cfg).reqtype = _ at hr
      obtain ⟨hreq, haddr⟩ := address_of_accept hv fun fs e m h => by
        rw [hr] at h
        simp [hnoc2] at h
      rw [hreq] at hr
      exact (congrArg Predecode.addressType haddr).trans ((ofPcx_addressType cfg _).2 hr)
  · change (n.csm.step csm _ (n.l15.stallS3 cfg (n.gated csm i)) _ _).s3.rdEn = true → _
    have hs3 : (n.step cfg csm i).l15.s3 = n.l15.s3Next cfg (n.gated csm i) := rfl
    intro hrd hd hf
    cases h3 : n.l15.stallS3 cfg (n.gated csm i) with
    | true =>
        rw [hs3, State.s3Next_of_stall h3]
        simp only [Node.step, Csm.step, h3, if_true] at hrd hd hf
        exact hc.reads hrd hd hf
    | false =>
        rw [hs3, State.s3Next_of_move h3]
        simp only [Node.step, Csm.step, h3, Bool.false_eq_true, if_false] at hrd hd hf
        exact hc.reads_of_rdEn hrtl hrd hd hf
  · change (n.csm.step csm _ (n.l15.stallS3 cfg (n.gated csm i)) _ _).s3.wrEn = true → _
    have hs3 : (n.step cfg csm i).l15.s3 = n.l15.s3Next cfg (n.gated csm i) := rfl
    intro hwr hd
    cases h3 : n.l15.stallS3 cfg (n.gated csm i) with
    | true =>
        rw [hs3, State.s3Next_of_stall h3]
        simp only [Node.step, Csm.step, h3, if_true] at hwr hd ⊢
        exact hc.writes hwr hd
    | false =>
        rw [hs3, State.s3Next_of_move h3]
        simp only [Node.step, Csm.step, h3, Bool.false_eq_true, if_false] at hwr hd ⊢
        have hr := hc.hmcFill_of_wrEn hwr hd
        have hmem : Predecode.addressType 0 = .memory := rfl
        exact ⟨hr, by simp [CsmReq.flushEn, csmReqS2_of_hmcFill hr, hmem]⟩

theorem Init.coupled (h : Init n) : Coupled cfg n := by
  constructor
  · simp [h.l15.s2]
  · simp [h.l15.s2]
  · simp [h.csm]
  · simp [h.csm]

end Node

end OpenPiton.Home
