import OpenPiton.L15.Decoder

namespace OpenPiton.L15

/-- The words of the NoC1 data buffer an operation sends. -/
def Noc1Op.dataWords : Noc1Op → Nat
  | .dataCasRequestFromPcx => 2
  | .dataWritethroughRequestFromPcx | .dataSwapRequestFromPcx | .dataAmoRequestFromPcx _ | .interruptFwd => 1
  | _ => 0

namespace Reqtype

/-- The request types of NoC2 messages. -/
def fromNoc2 : Reqtype → Bool
  | .none | .invalidation | .downgrade | .icacheInvalidation | .hmcFill | .ackdtIfill | .ackdtLdNc | .ackAtomic
  | .ackdtLr | .ackdtLd | .ackdtStIm | .ackdtStSm | .ackWritethrough | .ackCmo | .ackPrefetch | .l2Interrupt => true
  | _ => false

end Reqtype

theorem ofNoc2_fromNoc2 (cfg : Config) (fs : FetchState) (e : MshrEntry) (noc2 : Noc2Msg)
    (h : (Predecode.ofNoc2 cfg fs e noc2).reqtype ≠ .ignore) :
    (Predecode.ofNoc2 cfg fs e noc2).reqtype.fromNoc2 = true := by
  revert h
  simp only [Predecode.ofNoc2, Predecode.ackdtReqtype]
  cases noc2.reqtype <;> cases noc2.mshrType <;> simp only <;> repeat' split
  all_goals simp [Reqtype.fromNoc2]

@[simp] theorem ofNoc2_source (cfg : Config) (fs : FetchState) (e : MshrEntry) (noc2 : Noc2Msg) :
    (Predecode.ofNoc2 cfg fs e noc2).source = .noc2 := by
  simp only [Predecode.ofNoc2]
  cases noc2.reqtype with
  | storeFwd | invFwd | loadFwd => cases noc2.icacheType <;> rfl
  | nodataAck | ncStoreMemAck => cases noc2.mshrType <;> rfl
  | dataAck | ncLoadMemAck | interrupt | other => rfl

@[simp] theorem ofPcx_source (cfg : Config) (pcx : PcxReq) : (Predecode.ofPcx cfg pcx).source = .pcx := by
  unfold Predecode.ofPcx
  split <;> rfl

@[simp] theorem ofPcx_nonCacheable (cfg : Config) (pcx : PcxReq) :
    (Predecode.ofPcx cfg pcx).nonCacheable = pcx.nc := by
  unfold Predecode.ofPcx
  split <;> rfl

namespace DecoderIn

/-- The command slot the first pass claims for the second. -/
def secondPassSlots (d : DecoderIn) : Nat :=
  if FetchState.isTwoPass d.reqtype d.intVecDis && d.reqtype != .lineFlush then 1 else 0

/-- The data words the first pass claims for the second. -/
def secondPassWords (d : DecoderIn) : Nat :=
  match d.reqtype with
  | .cas => 2
  | .swpLoadstub | .amo _ => 1
  | .writethrough => if d.intVecDis then 0 else 1
  | _ => 0

theorem secondPassSlots_of_not_twoPass {d : DecoderIn} (h : FetchState.isTwoPass d.reqtype d.intVecDis = false) :
    d.secondPassSlots = 0 := by
  simp [secondPassSlots, h]

theorem secondPassWords_of_not_twoPass {d : DecoderIn} (h : FetchState.isTwoPass d.reqtype d.intVecDis = false) :
    d.secondPassWords = 0 := by
  simp only [secondPassWords]
  cases hr : d.reqtype <;> simp_all [FetchState.isTwoPass]

end DecoderIn

namespace Ctl

/-- The command slot the pass itself uses or gives back. -/
def slots (ctl : Ctl) : Nat := if ctl.noc1Op = .none then 0 else 1

/-- The data words claimed in S1. -/
def wordsClaimed (ctl : Ctl) : Nat := if ctl.creditmanReq8B then 1 else if ctl.creditmanReq16B then 2 else 0

/-- The operations that may hold S2 for a burst. -/
def mayBurst (ctl : Ctl) : Bool :=
  (match ctl.dcacheOp with
    | .writeLruWayFromNoc2 | .writeLruWayFromNoc2AndMshr | .writeTagcheckWayIfMeFromMshr
    | .writeTagcheckWayIfLrscSetFromMshr | .writeMshrWayFromMshr => true
    | _ => false) ||
  (match ctl.noc1Op with
    | .writebackGuardIfLruM | .writebackGuardIfFlushM | .writebackGuardIfTagcheckM => true
    | _ => false) ||
  (match ctl.cpxOp with
    | .invalidationIfTagcheckMesAndWaymapValid | .invalidationIfLruMesAndWaymapValid
    | .invalidationIfFlushMesAndWaymapValid | .ldResponseFromDcache | .ldResponseFromCsm
    | .ldResponseIfTagcheckMesFromDcache => true
    | _ => false)

/-- What an operation on NoC1 comes with: its accesses to the data array and the LRU, and its
operations on the other ports. -/
def companions (ctl : Ctl) : Bool :=
  match ctl.noc1Op with
  | .none => true
  | .writebackGuardIfLruM =>
      ctl.dcacheOp == .readLruWayIfM && ctl.cpxOp == .invalidationIfLruMesAndWaymapValid &&
        ctl.noc3Op == .writebackIfLruMFromDcache && ctl.lruarrayWriteOp == .eviction
  | .writebackGuardIfFlushM =>
      ctl.dcacheOp == .readFlushWayIfM && ctl.cpxOp == .invalidationIfFlushMesAndWaymapValid &&
        ctl.noc3Op == .writebackIfFlushMFromDcache && ctl.lruarrayWriteOp == .invalidateIfFlushWayIsMes
  | .writebackGuardIfTagcheckM =>
      ctl.dcacheOp == .readTagcheckWayIfM && ctl.cpxOp == .invalidationIfTagcheckMesAndWaymapValid &&
        ctl.noc3Op == .writebackIfTagcheckMFromDcache && ctl.lruarrayWriteOp == .invalidateIfTagcheckWayIsMes
  | .dataLdRequestIfTagcheckMiss =>
      ctl.dcacheOp == .readTagcheckWayIfMes && ctl.cpxOp == .ldResponseIfTagcheckMesFromDcache &&
        ctl.noc3Op == .none && ctl.lruarrayWriteOp == .updateAccessBitsIfTagcheckWayIsMes
  | .dataStUpgradeIfTagcheckSElseStFillIfTagcheckI =>
      ctl.dcacheOp == .writeTagcheckWayIfMeFromMshr && ctl.cpxOp == .stAckIfTagcheckMeWithPossibleInval &&
        ctl.noc3Op == .none && ctl.lruarrayWriteOp == .updateAccessBitsIfTagcheckWayIsMes
  | .dataLrRequest => !ctl.mayBurst && ctl.cpxOp == .none && ctl.noc3Op == .none
  | _ => !ctl.mayBurst

end Ctl

section Decoder

variable (cfg : Config) (d : DecoderIn)

theorem decoder_slots_normal (h : d.fetchState = .normal) :
    (decoder cfg d).creditmanNoc1Needed = (decoder cfg d).slots + d.secondPassSlots := by
  obtain ⟨fs, reqtype, last, dis, hit, broadcast⟩ := d
  subst h
  cases reqtype with
  | writethrough => cases dis <;> rfl
  | store => cases hit <;> rfl
  | pcxInterrupt => cases broadcast <;> rfl
  | _ => rfl

theorem decoder_slots_second (h : d.fetchState ≠ .normal) :
    (decoder cfg d).creditmanNoc1Needed + d.secondPassSlots = (decoder cfg d).slots := by
  obtain ⟨fs, reqtype, last, dis, hit, broadcast⟩ := d
  cases reqtype with
  | writethrough => cases dis <;> cases fs <;> first | exact absurd rfl h | rfl
  | store => cases hit <;> rfl
  | pcxInterrupt => cases broadcast <;> rfl
  | loadNc | lineFlush | cas | swpLoadstub | amoLr | amo | ackdtLd | ackdtStIm | ackdtLr =>
      cases fs <;> first | exact absurd rfl h | rfl
  | _ => rfl

theorem decoder_words_normal (h : d.fetchState = .normal) :
    (decoder cfg d).wordsClaimed = (decoder cfg d).noc1Op.dataWords + d.secondPassWords := by
  obtain ⟨fs, reqtype, last, dis, hit, broadcast⟩ := d
  subst h
  cases reqtype with
  | writethrough => cases dis <;> rfl
  | store => cases hit <;> rfl
  | pcxInterrupt => cases broadcast <;> rfl
  | _ => rfl

theorem wordsClaimed_second (h : d.fetchState ≠ .normal)
    (h2 : FetchState.isTwoPass d.reqtype d.intVecDis = true) : (decoder cfg d).wordsClaimed = 0 := by
  obtain ⟨fs, reqtype, last, dis, hit, broadcast⟩ := d
  cases reqtype with
  | writethrough => cases dis with
    | true => cases h2
    | false => cases fs <;> first | exact absurd rfl h | rfl
  | loadNc | lineFlush | cas | swpLoadstub | amoLr | amo => cases fs <;> first | exact absurd rfl h | rfl
  | _ => cases h2

theorem decoder_words_second (h : d.fetchState ≠ .normal) :
    (decoder cfg d).wordsClaimed + d.secondPassWords = (decoder cfg d).noc1Op.dataWords := by
  obtain ⟨fs, reqtype, last, dis, hit, broadcast⟩ := d
  cases reqtype with
  | writethrough => cases dis <;> cases fs <;> first | exact absurd rfl h | rfl
  | store => cases hit <;> rfl
  | pcxInterrupt => cases broadcast <;> rfl
  | loadNc | lineFlush | cas | swpLoadstub | amoLr | amo | ackdtLd | ackdtStIm | ackdtLr =>
      cases fs <;> first | exact absurd rfl h | rfl
  | _ => rfl

/-- Words are claimed by requests that claim a slot, and not both kinds by one. -/
theorem decoder_words : ((decoder cfg d).creditmanReq8B && (decoder cfg d).creditmanReq16B) = false ∧
    ((decoder cfg d).creditmanNoc1Needed == 0 && (decoder cfg d).wordsClaimed != 0) = false := by
  obtain ⟨fs, reqtype, last, dis, hit, broadcast⟩ := d
  cases reqtype with
  | writethrough => cases dis <;> cases fs <;> exact ⟨rfl, rfl⟩
  | store => cases hit <;> exact ⟨rfl, rfl⟩
  | pcxInterrupt => cases broadcast <;> exact ⟨rfl, rfl⟩
  | loadNc | lineFlush | cas | swpLoadstub | amoLr | amo | ackdtLd | ackdtStIm | ackdtLr =>
      cases fs <;> exact ⟨rfl, rfl⟩
  | _ => exact ⟨rfl, rfl⟩

theorem needed_of_words (h : (decoder cfg d).creditmanReq8B = true ∨ (decoder cfg d).creditmanReq16B = true) :
    (decoder cfg d).creditmanNoc1Needed ≠ 0 := by
  intro hz
  have hw := (decoder_words cfg d).2
  rcases h with h | h <;> simp [hz, h, Ctl.wordsClaimed] at hw
  split_ifs at hw

theorem decoder_companions : (decoder cfg d).companions = true := by
  obtain ⟨fs, reqtype, last, dis, hit, broadcast⟩ := d
  cases reqtype with
  | writethrough => cases dis <;> cases fs <;> rfl
  | store => cases hit <;> rfl
  | pcxInterrupt => cases broadcast <;> rfl
  | loadNc | lineFlush | cas | swpLoadstub | amoLr | amo | ackdtLd | ackdtStIm | ackdtLr => cases fs <;> rfl
  | _ => rfl

/-- A request acknowledged to the core after S1 passes S2 and S3 in one beat each. -/
theorem decoder_pcxAck : ((decoder cfg d).pcxAckStage == .s2 || (decoder cfg d).pcxAckStage == .s3) = true →
    (decoder cfg d).mayBurst = false := by
  obtain ⟨fs, reqtype, last, dis, hit, broadcast⟩ := d
  cases reqtype with
  | writethrough => cases dis <;> cases fs <;> simp [decoder, Decoder.writethrough, Decoder.tagcheckWriteback, Ctl.mayBurst]
  | store => cases hit <;> simp [decoder, Decoder.store]
  | pcxInterrupt => cases broadcast <;> simp [decoder, Ctl.mayBurst]
  | loadNc | lineFlush | cas | swpLoadstub | amoLr | amo | ackdtLd | ackdtStIm | ackdtLr =>
      cases fs <;> simp [decoder, Decoder.atomic, Decoder.loadNc, Decoder.lineFlush, Ctl.mayBurst, Decoder.tagcheckWriteback,
        Decoder.ackdtLd, Decoder.ackdtStIm, Decoder.ackdtLr, Decoder.fillEviction]
  | _ => simp [decoder, Ctl.mayBurst, Decoder.amoSc, Decoder.invalidation, Decoder.downgrade, Decoder.ackdtStSm]

theorem decoder_twoPass (h : d.fetchState = .normal) (h2 : FetchState.isTwoPass d.reqtype d.intVecDis = true) :
    (decoder cfg d).pcxAckStage = .never := by
  obtain ⟨fs, reqtype, last, dis, hit, broadcast⟩ := d
  subst h
  cases reqtype with
  | writethrough => cases dis with
    | true => cases h2
    | false => rfl
  | loadNc | lineFlush | cas | swpLoadstub | amoLr | amo => rfl
  | _ => cases h2

theorem isTwoPass_noc2 {reqtype : Reqtype} (h : reqtype.fromNoc2 = true) (dis : Bool) :
    FetchState.isTwoPass reqtype dis = false := by
  cases reqtype <;> first | rfl | cases h

theorem next_pcxWritebackDone (h : FetchState.next cfg d = .pcxWritebackDone) :
    d.fetchState = .normal ∧ FetchState.isTwoPass d.reqtype d.intVecDis = true := by
  obtain ⟨fs, reqtype, last, dis, hit, broadcast⟩ := d
  cases fs <;> simp only [FetchState.next] at h
  · refine ⟨rfl, ?_⟩
    by_contra h2
    rw [if_neg h2] at h
    revert h
    cases reqtype <;> simp <;> split <;> simp
  all_goals cases h

theorem decoder_noc2 (h : d.reqtype.fromNoc2 = true) :
    (decoder cfg d).pcxAckStage = .never ∧ (decoder cfg d).wordsClaimed = 0 ∧
      ((decoder cfg d).creditmanNoc1Needed == 1 && (decoder cfg d).creditmanNoc1Unreserve ||
        (decoder cfg d).creditmanNoc1Needed == 0) = true := by
  obtain ⟨fs, reqtype, last, dis, hit, broadcast⟩ := d
  cases reqtype with
  | ackdtLd | ackdtStIm | ackdtLr => cases fs <;> exact ⟨rfl, rfl, rfl⟩
  | none | invalidation | downgrade | icacheInvalidation | hmcFill | ackdtIfill | ackdtLdNc | ackAtomic
  | ackdtStSm | ackWritethrough | ackCmo | ackPrefetch | l2Interrupt => exact ⟨rfl, rfl, rfl⟩
  | _ => cases h

end Decoder

end OpenPiton.L15
