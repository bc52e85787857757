import OpenPiton.Home.Passes

namespace OpenPiton.Home

open L15 L15.State

/-- The commands that take the home `l15_csm` looks up for their request. -/
def looksUp : Noc1Op → Bool
  | .none | .writebackGuardIfLruM | .writebackGuardIfFlushM | .writebackGuardIfTagcheckM | .interruptFwd => false
  | _ => true

section Decoder

variable (cfg : Config) (d : DecoderIn)

theorem decoder_looksUp (h : looksUp (decoder cfg d).noc1Op = true) :
    match decoderCsmOp d with
    | .readGhidIfTagcheckMiss => (decoder cfg d).noc1Op = .dataLdRequestIfTagcheckMiss
    | .readGhidIfTagcheckSi => (decoder cfg d).noc1Op = .dataStUpgradeIfTagcheckSElseStFillIfTagcheckI
    | .readGhid => True
    | _ => False := by
  obtain ⟨fs, reqtype, last, dis, hit, broadcast⟩ := d
  cases reqtype with
  | writethrough => cases dis <;> cases fs <;> first | exact trivial | cases h
  | store =>
      cases hit
      · rfl
      · cases h
  | pcxInterrupt => cases broadcast <;> cases h
  | loadNc | cas | swpLoadstub | amoLr | amo => cases fs <;> first | exact trivial | cases h
  | lineFlush | ackdtLd | ackdtStIm | ackdtLr => cases fs <;> cases h
  | load => rfl
  | cmo | ifill => trivial
  | _ => cases h

/-- A request that looks up its home has no other work for S2 to stay for. -/
theorem decoder_csmOp :
    match decoderCsmOp d with
    | .readGhid => (decoder cfg d).mayBurst = false
    | .readGhidIfTagcheckSi =>
        (decoder cfg d).dcacheOp = .writeTagcheckWayIfMeFromMshr ∧
          (decoder cfg d).cpxOp = .stAckIfTagcheckMeWithPossibleInval ∧
          (decoder cfg d).noc1Op = .dataStUpgradeIfTagcheckSElseStFillIfTagcheckI
    | .readGhidIfTagcheckMiss =>
        (decoder cfg d).dcacheOp = .readTagcheckWayIfMes ∧
          (decoder cfg d).cpxOp = .ldResponseIfTagcheckMesFromDcache ∧
          (decoder cfg d).noc1Op = .dataLdRequestIfTagcheckMiss
    | _ => True := by
  obtain ⟨fs, reqtype, last, dis, hit, broadcast⟩ := d
  cases reqtype with
  | writethrough => cases dis <;> cases fs <;> first | exact trivial | exact rfl
  | store =>
      cases hit
      · exact ⟨rfl, rfl, rfl⟩
      · trivial
  | loadNc | cas | swpLoadstub | amoLr | amo | lineFlush | ackdtLd | ackdtStIm | ackdtLr =>
      cases fs <;> first | exact trivial | exact rfl
  | load => exact ⟨rfl, rfl, rfl⟩
  | cmo | ifill => rfl
  | _ => trivial

end Decoder

variable {cfg : Config} {csm : CsmConfig}

theorem burstS2_of_reads {s : State} (h : ReadsS3 (s.s3Latch cfg)) : s.burstS2 cfg = false := by
  have hd := decoder_csmOp cfg s.s2.d
  have hctl : s.s2.ctl cfg = decoder cfg s.s2.d := rfl
  have hop : decoderCsmOp (s.s3Latch cfg).d = decoderCsmOp s.s2.d := rfl
  have htag : (s.s3Latch cfg).tagcheckState = s.tagcheckStateS2 cfg := rfl
  rw [ReadsS3, hop, htag] at h
  cases hc : decoderCsmOp s.s2.d with
  | readGhid =>
      rw [hc] at hd
      by_contra hb
      have := burst_mayBurst (by simpa using hb)
      rw [hctl, hd] at this
      cases this
  | readGhidIfTagcheckSi =>
      rw [hc] at hd h
      simp only at hd h
      simp [burstS2, load64BS2, noc3WbS2, l1InvS2, l1InvAnyS2, mshrWriteS2, l1dLoadS2, hctl, hd, h]
  | readGhidIfTagcheckMiss =>
      rw [hc] at hd h
      simp only at hd h
      simp [burstS2, load64BS2, noc3WbS2, l1InvS2, l1InvAnyS2, mshrWriteS2, l1dLoadS2, hctl, hd, h]
  | _ => rw [hc] at h; exact h.elim

theorem stallS2_of_reads {s : State} {i : Input} (hv : s.s2.val = true) (h : ReadsS3 (s.s3Latch cfg)) :
    s.stallS2 cfg i = s.stallS3 cfg i := by
  simp [stallS2, stallLoadS2, burstS2_of_reads h, stallRealS2_eq hv]

namespace Node

variable {n : Node} {i : NodeInput} {j : Input}

theorem csmReqS2_of_reads (hv : n.l15.s2.val = true) (h : ReadsS3 (n.l15.s3Latch cfg))
    (h3 : n.l15.stallS3 cfg j = false) :
    n.csmReqS2 cfg csm j =
      { val := true, address := n.l15.s2.address, ticket := n.csmTicketS2, page := n.csmPcxDataS2 } := by
  have h2 : n.l15.stallS2 cfg j = false := (stallS2_of_reads hv h).trans h3
  have hop : decoderCsmOp (n.l15.s3Latch cfg).d = n.csmOpS2 := rfl
  have htag : (n.l15.s3Latch cfg).tagcheckState = n.l15.tagcheckStateS2 cfg := rfl
  rw [ReadsS3, hop, htag] at h
  cases hc : n.csmOpS2 with
  | readGhid => simp [csmReqS2, csmReqOpS2, hc, hv, h2]
  | readGhidIfTagcheckSi =>
      rw [hc] at h
      simp only at h
      simp [csmReqS2, csmReqOpS2, hc, hv, h2, h]
  | readGhidIfTagcheckMiss =>
      rw [hc] at h
      simp only at h
      simp [csmReqS2, csmReqOpS2, hc, hv, h2, h]
  | _ => rw [hc] at h; exact h.elim

/-- The pages of the requests that leave S2 are local ones, and nothing accesses the home map cache
by its address but a flush. -/
structure Plain (cfg : Config) (csm : CsmConfig) (n : Node) (j : Input) : Prop where
  diag : (n.csmReqS2 cfg csm j).diagEn = false
  reads : n.l15.s2.val = true → ReadsS3 (n.l15.s3Latch cfg) →
    n.csmPcxDataS2.isGlobal = false ∧ Predecode.addressType n.l15.s2.address ≠ .hmcFlush

instance : Decidable (Plain cfg csm n j) :=
  decidable_of_iff ((n.csmReqS2 cfg csm j).diagEn = false ∧ (n.l15.s2.val = true → ReadsS3 (n.l15.s3Latch cfg) →
      n.csmPcxDataS2.isGlobal = false ∧ Predecode.addressType n.l15.s2.address ≠ .hmcFlush))
    ⟨fun ⟨a, b⟩ => ⟨a, b⟩, fun ⟨a, b⟩ => ⟨a, b⟩⟩

/-- `l15_csm` has the lookup of the request in S3. -/
structure LooksUp (csm : CsmConfig) (n : Node) : Prop where
  address : n.csm.s3.address = n.l15.s3.address
  ticket : n.csm.s3.ticket = n.csmTicketS3
  addrIn : n.csm.s3.addrIn = csm.homeAddress n.csm.s3.page n.l15.s3.address
  rdEn : n.csm.s3.rdEn = true
  flushEn : n.csm.s3.flushEn = false
  page : n.csm.s3.page.isGlobal = false

/-- The request in S3 that looks up its home has its lookup. -/
structure Looked (csm : CsmConfig) (n : Node) : Prop where
  diag : n.csm.s3.diagEn = false
  reads : n.l15.s3.val = true → ReadsS3 n.l15.s3 → LooksUp csm n

theorem Looked.step (hl : Looked csm n) (hen : csm.csmEn = true) (hp : Plain cfg csm n (n.gated csm i)) :
    Looked csm (n.step cfg csm i) := by
  have hs3 : (n.step cfg csm i).l15.s3 = n.l15.s3Next cfg (n.gated csm i) := rfl
  have hcsm : (n.step cfg csm i).csm.s3 = if n.l15.stallS3 cfg (n.gated csm i) then n.csm.s3 else _ := rfl
  cases h3 : n.l15.stallS3 cfg (n.gated csm i) with
  | true =>
      rw [h3, if_pos rfl] at hcsm
      rw [s3Next_of_stall h3] at hs3
      constructor
      · rw [hcsm]
        exact hl.diag
      · rw [hs3]
        intro hv hr
        rw [stallS3_of_reads hr] at h3
        cases h3
  | false =>
      rw [h3, if_neg Bool.false_ne_true] at hcsm
      rw [s3Next_of_move h3] at hs3
      constructor
      · rw [hcsm]
        exact hp.diag
      · rw [hs3]
        intro hv hr
        have hreq : n.csmReqS2 cfg csm (n.gated csm i) = _ := csmReqS2_of_reads hv hr h3
        obtain ⟨hlocal, hflush⟩ := hp.reads hv hr
        have hdiag := hp.diag
        rw [hreq] at hcsm hdiag
        have hdiag' : Predecode.addressType n.l15.s2.address ≠ .hmcAccess := by
          simpa [CsmReq.diagEn] using hdiag
        constructor
        · rw [hcsm, hs3]
          rfl
        · rw [hcsm, csmTicketS3, hs3]
          rfl
        · rw [hcsm, hs3]
          simp [Csm.addrInNext, CsmReq.writeVal, CsmReq.wrEn, CsmReq.addrIn, CsmReq.diagEn, CsmReq.flushEn, hdiag', hflush,
            CsmReq.lhid, CsmReq.numHomes, hen, CsmConfig.homeAddress, State.s3Latch]
        · rw [hcsm]
          simp [CsmReq.rdEn, hlocal]
        · rw [hcsm]
          simp [CsmReq.flushEn, hflush]
        · rw [hcsm]
          exact hlocal

theorem Init.looked (h : Init n) : Looked csm n := by
  constructor <;> simp [h.csm, h.l15.s3]

theorem reads_of_req (hr : n.l15.noc1bufferReqVal cfg = true) (hl : looksUp (n.l15.s3.ctl cfg).noc1Op = true) :
    n.l15.s3.val = true ∧ ReadsS3 n.l15.s3 := by
  have hd := decoder_looksUp cfg n.l15.s3.d hl
  simp only [noc1bufferReqVal, Bool.and_eq_true] at hr
  obtain ⟨⟨⟨hv, hreq⟩, -⟩, -⟩ := hr
  refine ⟨hv, ?_⟩
  rw [ReadsS3]
  cases hc : decoderCsmOp n.l15.s3.d with
  | readGhid => trivial
  | readGhidIfTagcheckSi =>
      rw [hc] at hd
      simp only at hd ⊢
      have hop : (n.l15.s3.ctl cfg).noc1Op = .dataStUpgradeIfTagcheckSElseStFillIfTagcheckI := hd
      simp only [noc1ReqValS3, hop] at hreq
      revert hreq
      cases n.l15.s3.tagcheckState <;> simp [Mesi.me]
  | readGhidIfTagcheckMiss =>
      rw [hc] at hd
      simp only at hd ⊢
      have hop : (n.l15.s3.ctl cfg).noc1Op = .dataLdRequestIfTagcheckMiss := hd
      simp only [noc1ReqValS3, hop] at hreq
      simpa using hreq
  | _ => rw [hc] at hd; exact hd.elim

end Node

end OpenPiton.Home
