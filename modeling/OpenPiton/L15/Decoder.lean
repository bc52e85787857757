import OpenPiton.L15.Mshr

namespace OpenPiton.L15

/-- The predecode signals of S1. -/
structure Predecode where
  source : Source := .invalid
  reqtype : Reqtype := .none
  address : Nat := 0
  size : MsgSize := .b0
  threadid : Nat := 0
  mshrIndex : Nat := 0
  l1ReplacementWay : Nat := 0
  nonCacheable : Bool := false
  icacheBit : Bool := false
  dcacheLoad : Bool := false
  atomic : Bool := false
  noc2Inval : Bool := false
  fwdSubcachelineVector : BitVec 4 := 0
  isLastInval : Bool := false
  interruptBroadcast : Bool := false
  multicycInvordowngrade : Bool := false
  intVecDis : Bool := false
  tagcheckMatched : Bool := false
  hitStbuf : Bool := false
  hitStbufMshrIndex : Nat := 0
  deriving DecidableEq, Repr

namespace Predecode

def val (p : Predecode) : Bool := p.source != .invalid

def source? (fs : FetchState) (noc2Val pcxVal : Bool) : Source :=
  match fs with
  | .normal => if noc2Val then .noc2 else if pcxVal then .pcx else .invalid
  | .pcxWritebackDone => .pcx
  | .noc2WritebackDone | .inval2 | .inval3 | .inval4 | .icacheInval2 => .noc2

/-- `predecode_address_plus0_s1` .. `plus3`. -/
def addressPlus (address k : Nat) : Nat := address / 64 * 64 + k * 16 + address % 16

def dataInvalAddress (fs : FetchState) (address : Nat) : Nat :=
  match fs with
  | .inval2 => addressPlus address 1
  | .inval3 => addressPlus address 2
  | .inval4 => addressPlus address 3
  | _ => addressPlus address 0

def icacheInvalAddress (fs : FetchState) (address : Nat) : Nat :=
  match fs with
  | .icacheInval2 => addressPlus address 2
  | _ => addressPlus address 0

def isLastIcacheInval (cfg : Config) (fs : FetchState) (v : BitVec 4) : Bool :=
  ((fs == if cfg.icache64B then .normal else .icacheInval2) && v.getLsbD 3 && v.getLsbD 2) ||
    (fs == .normal && v == 0b0011#4)

def isLastDataInval (cfg : Config) (fs : FetchState) (v : BitVec 4) : Bool :=
  (fs == .inval4 && v.getLsbD 3) ||
  (fs == .inval3 && !v.getLsbD 3 && v.getLsbD 2) ||
  (fs == .inval2 && (if cfg.lineSize = 32 then v.getLsbD 1 else !v.getLsbD 3 && !v.getLsbD 2 && v.getLsbD 1)) ||
  (fs == .normal && v == 0b0001#4)

def ackdtReqtype (noc2 : Noc2Msg) (e : MshrEntry) : Reqtype :=
  if noc2.hmcFill then .hmcFill
  else if e.control.nc then
    if e.control.icache then .ackdtIfill
    else if e.control.load then .ackdtLdNc
    else if e.control.atomic then .ackAtomic
    else .ignore
  else
    if e.control.icache then .ackdtIfill
    else if e.control.atomic then .ackdtLr
    else if e.control.load then .ackdtLd
    else if e.type = .st ∧ e.state = .im then .ackdtStIm
    else if e.type = .st ∧ e.state = .sm then .ackdtStSm
    else .ignore

/-- The `NOC2` case of the predecoder; `e` is the MSHR entry the message names. -/
def ofNoc2 (cfg : Config) (fs : FetchState) (e : MshrEntry) (noc2 : Noc2Msg) : Predecode :=
  let p : Predecode :=
    { source := .noc2
      size := e.control.size
      threadid := e.control.threadid
      mshrIndex := cfg.threadMask noc2.mshrIndex
      l1ReplacementWay := e.control.l1ReplacementWay
      nonCacheable := e.control.nc
      atomic := e.control.atomic
      dcacheLoad := e.control.load
      fwdSubcachelineVector := noc2.fwdSubcachelineVector
      isLastInval :=
        if noc2.icacheType then isLastIcacheInval cfg fs noc2.fwdSubcachelineVector
        else isLastDataInval cfg fs noc2.fwdSubcachelineVector }
  let inval (reqtype : Reqtype) (noc2Inval : Bool) : Predecode :=
    if noc2.icacheType then
      { p with icacheBit := true, reqtype := .icacheInvalidation, address := icacheInvalAddress fs noc2.address }
    else
      { p with
        reqtype := reqtype, noc2Inval := noc2Inval, address := dataInvalAddress fs noc2.address
        multicycInvordowngrade := true }
  match noc2.reqtype with
  | .storeFwd => inval .invalidation false
  | .invFwd => inval .invalidation true
  | .loadFwd => inval .downgrade false
  | .dataAck | .ncLoadMemAck =>
      { p with
        icacheBit := e.control.icache
        reqtype := ackdtReqtype noc2 e
        address := if noc2.hmcFill then 0 else e.address }
  | .nodataAck | .ncStoreMemAck =>
      match noc2.mshrType with
      | .st => { p with icacheBit := e.control.icache, reqtype := .ackWritethrough, address := e.address }
      | .cmo => { p with icacheBit := e.control.icache, reqtype := .ackCmo, address := e.address }
      | _ => { p with icacheBit := e.control.icache, reqtype := .ackPrefetch, address := 0 }
  | .interrupt => { p with reqtype := .l2Interrupt }
  | .other => p

inductive AddressType
  | configRegs | dataAccess | lineFlush | hmcAccess | hmcFlush | memory
  deriving DecidableEq, Repr

/-- `L15_ADDR_TYPE`, bits 39:32 of the address. -/
def addressType (address : Nat) : AddressType :=
  match address / 2 ^ 32 % 256 with
  | 0xba => .configRegs
  | 0xb0 => .dataAccess
  | 0xb3 => .lineFlush
  | 0xb2 => .hmcAccess
  | 0xb5 => .hmcFlush
  | _ => .memory

def loadReqtype (pcx : PcxReq) : Reqtype :=
  if addressType pcx.address = .configRegs then .loadConfigReg
  else if addressType pcx.address = .dataAccess then .diagLoad
  else if addressType pcx.address = .hmcAccess then .hmcDiagLoad
  else if pcx.prefetch then .loadPrefetch
  else if pcx.nc then .loadNc
  else if pcx.invalidateCacheline then .dcacheSelfInvalidation
  else .load

def storeReqtype (pcx : PcxReq) : Reqtype :=
  if addressType pcx.address = .configRegs then .writeConfigReg
  else if addressType pcx.address = .dataAccess then .diagStore
  else if addressType pcx.address = .lineFlush then .lineFlush
  else if addressType pcx.address = .hmcAccess then .hmcDiagStore
  else if addressType pcx.address = .hmcFlush then .hmcFlush
  else if pcx.nc then .writethrough
  else .store

def amoReqtype : AmoOp → Reqtype
  | .none => .ignore
  | .lr => .amoLr
  | .sc => .amoSc
  | .swap => .swpLoadstub
  | .alu op => .amo op
  | .cas1 => .cas
  | .cas2 => .ignore

/-- The `PCX` case of the predecoder. -/
def ofPcx (cfg : Config) (pcx : PcxReq) : Predecode :=
  let p : Predecode :=
    { source := .pcx
      address := pcx.address
      size := pcx.size
      threadid := cfg.threadMask pcx.threadid
      mshrIndex := cfg.threadMask pcx.threadid
      l1ReplacementWay := pcx.l1rplway
      nonCacheable := pcx.nc }
  match pcx.rqtype with
  | .cmo (some op) => { p with reqtype := .cmo op }
  | .cmo none => p
  | .load => { p with reqtype := loadReqtype pcx, dcacheLoad := true }
  | .ifill =>
      { p with
        reqtype := if pcx.invalidateCacheline then .icacheSelfInvalidation else .ifill
        icacheBit := true }
  | .store => { p with reqtype := storeReqtype pcx }
  | .amo op =>
      { p with
        reqtype := amoReqtype op
        atomic := match op with
          | .none | .cas2 => false
          | _ => true }
  | .interrupt => { p with reqtype := .pcxInterrupt, interruptBroadcast := pcx.nc }
  | .other => { p with reqtype := .ignore }
  | .unknown => p

/-- `L15_INT_VEC_DIS` is 0x9800000800; bits 39:32 and 11:8 are compared. -/
def isIntVecDis (address : Nat) : Bool := address / 2 ^ 32 % 256 == 0x98 && address / 2 ^ 8 % 16 == 8

def tagcheckMatchedLd (cfg : Config) (mshr : Mshr) (pcx : PcxReq) (i : Nat) : Bool :=
  (mshr i).val && (mshr i).type == .ld && cfg.partialTag pcx.address == cfg.partialTag (mshr i).address

def tagcheckMatchedSt (cfg : Config) (mshr : Mshr) (pcx : PcxReq) (i : Nat) : Bool :=
  (mshr i).val && (mshr i).type == .st && pcx.address / cfg.lineSize == (mshr i).address / cfg.lineSize

end Predecode

open Predecode in
def predecode (cfg : Config) (fs : FetchState) (mshr : Mshr) (pcxVal : Bool) (pcx : PcxReq)
    (noc2Val : Bool) (noc2 : Noc2Msg) : Predecode :=
  let p := match source? fs noc2Val pcxVal with
    | .noc2 => ofNoc2 cfg fs (mshr (cfg.threadMask noc2.mshrIndex)) noc2
    | .pcx => ofPcx cfg pcx
    | .invalid => {}
  { p with
    intVecDis := isIntVecDis pcx.address
    tagcheckMatched := anyMatch cfg.threads (tagcheckMatchedLd cfg mshr pcx) ||
      anyMatch cfg.threads (tagcheckMatchedSt cfg mshr pcx)
    hitStbuf := anyMatch cfg.threads (tagcheckMatchedSt cfg mshr pcx)
    hitStbufMshrIndex := lastMatch cfg.threads (tagcheckMatchedSt cfg mshr pcx) }

/-- What the decoder reads of the request: flopped with it down the pipeline. -/
structure DecoderIn where
  fetchState : FetchState := .normal
  reqtype : Reqtype := .none
  isLastInval : Bool := false
  intVecDis : Bool := false
  hitStbuf : Bool := false
  interruptBroadcast : Bool := false
  deriving DecidableEq, Repr

def Predecode.decoderIn (p : Predecode) (fs : FetchState) : DecoderIn :=
  ⟨fs, p.reqtype, p.isLastInval, p.intVecDis, p.hitStbuf, p.interruptBroadcast⟩

/-- The control bits the decoder generates. -/
structure Ctl where
  pcxAckStage : AckStage := .never
  noc2AckStage : AckStage := .never
  stallOnMshrAllocation : Bool := false
  mshrAllocationType : MshrType := .cmo
  stallOnMatchedBypassedIndex : Bool := false
  stallOnMatchedMshr : Bool := false
  s1MshrOp : S1MshrOp := .none
  dtagOp : DtagOp := .none
  s2MshrReadWriteCache : Bool := false
  mesiRead : Bool := false
  dcacheOp : DcacheOp := .none
  s3MshrOp : S3MshrOp := .none
  mesiWriteOp : MesiWriteOp := .none
  wmtRead : Bool := false
  wmtWriteOp : WmtWriteOp := .none
  wmtCompareOp : WmtCompareOp := .none
  lruarrayWriteOp : LruarrayWriteOp := .none
  cpxOp : CpxOp := .none
  noc1Op : Noc1Op := .none
  noc3Op : Noc3Op := .none
  creditmanNoc1Needed : Nat := 0
  creditmanNoc1Unreserve : Bool := false
  creditmanReq8B : Bool := false
  creditmanReq16B : Bool := false
  lrscFlagRead : Bool := false
  lrscFlagWriteOp : LrscFlagWriteOp := .none
  deriving DecidableEq, Repr

namespace Decoder

/-- The first pass of a non-cacheable or atomic request: write the line back and drop it. -/
def tagcheckWriteback (type : MshrType) : Ctl :=
  { stallOnMatchedBypassedIndex := true
    stallOnMatchedMshr := true
    stallOnMshrAllocation := true
    mshrAllocationType := type
    dtagOp := .read
    mesiRead := true
    mesiWriteOp := .invalidateTagcheckWayIfMes
    lrscFlagWriteOp := .clearTagcheckWay
    wmtRead := true
    wmtWriteOp := .demapTagcheckWayIfMes
    wmtCompareOp := .tagcheck
    dcacheOp := .readTagcheckWayIfM
    lruarrayWriteOp := .invalidateIfTagcheckWayIsMes
    cpxOp := .invalidationIfTagcheckMesAndWaymapValid
    noc1Op := .writebackGuardIfTagcheckM
    creditmanNoc1Needed := 2
    noc3Op := .writebackIfTagcheckMFromDcache }

/-- The eviction half of a fill. -/
def fillEviction : Ctl :=
  { stallOnMatchedBypassedIndex := true
    dtagOp := .read
    mesiRead := true
    dcacheOp := .readLruWayIfM
    s3MshrOp := .updateStMshrImIfIndexLruWayMatches
    wmtRead := true
    wmtWriteOp := .demapLruWayIfMes
    wmtCompareOp := .lru
    lruarrayWriteOp := .eviction
    lrscFlagWriteOp := .clearLruWay
    cpxOp := .invalidationIfLruMesAndWaymapValid
    noc1Op := .writebackGuardIfLruM
    creditmanNoc1Needed := 1
    noc3Op := .writebackIfLruMFromDcache
    creditmanNoc1Unreserve := true }

def loadNc (fs : FetchState) : Ctl :=
  if fs = .normal then tagcheckWriteback .ld
  else
    { pcxAckStage := .s1
      s1MshrOp := .allocate
      mshrAllocationType := .ld
      noc1Op := .dataLdRequest }

def writethrough (fs : FetchState) (intVecDis : Bool) : Ctl :=
  if intVecDis then
    { pcxAckStage := .s3
      cpxOp := .stAck
      noc1Op := .interruptFwd
      creditmanReq8B := true
      creditmanNoc1Needed := 1 }
  else if fs = .normal then { tagcheckWriteback .st with creditmanReq8B := true }
  else
    { pcxAckStage := .s3
      s1MshrOp := .allocate
      mshrAllocationType := .st
      noc1Op := .dataWritethroughRequestFromPcx
      s3MshrOp := .updateStMshrWaitAck }

def store (hitStbuf : Bool) : Ctl :=
  if hitStbuf then
    { pcxAckStage := .s1
      stallOnMatchedBypassedIndex := true
      stallOnMshrAllocation := true
      mshrAllocationType := .st
      s1MshrOp := .updateWritecache
      mesiRead := true
      wmtRead := true
      wmtCompareOp := .stbuf
      cpxOp := .stAckWithPossibleInval }
  else
    { pcxAckStage := .s1
      stallOnMatchedBypassedIndex := true
      stallOnMatchedMshr := true
      stallOnMshrAllocation := true
      s1MshrOp := .allocate
      mshrAllocationType := .st
      dtagOp := .read
      mesiRead := true
      s2MshrReadWriteCache := true
      dcacheOp := .writeTagcheckWayIfMeFromMshr
      wmtRead := true
      wmtCompareOp := .tagcheck
      lruarrayWriteOp := .updateAccessBitsIfTagcheckWayIsMes
      s3MshrOp := .deallocationIfTagcheckMeElseUpdateStateStmshr
      mesiWriteOp := .writeTagcheckWayMIfE
      cpxOp := .stAckIfTagcheckMeWithPossibleInval
      noc1Op := .dataStUpgradeIfTagcheckSElseStFillIfTagcheckI
      creditmanNoc1Needed := 1 }

def lineFlush (fs : FetchState) : Ctl :=
  if fs = .normal then { stallOnMatchedBypassedIndex := true, cpxOp := .stAck }
  else
    { pcxAckStage := .s1
      dtagOp := .read
      mesiRead := true
      dcacheOp := .readFlushWayIfM
      mesiWriteOp := .invalidateFlushWayIfMes
      lrscFlagWriteOp := .clearFlushWay
      wmtRead := true
      wmtWriteOp := .demapFlushWayIfMes
      wmtCompareOp := .flush
      lruarrayWriteOp := .invalidateIfFlushWayIsMes
      cpxOp := .invalidationIfFlushMesAndWaymapValid
      noc1Op := .writebackGuardIfFlushM
      creditmanNoc1Needed := 1
      noc3Op := .writebackIfFlushMFromDcache }

/-- The two passes of the atomics other than `AMO_SC`. -/
def atomic (fs : FetchState) (reqtype : Reqtype) (request : Noc1Op) : Ctl :=
  if fs = .normal then
    { tagcheckWriteback .ld with
      creditmanReq16B := reqtype = .cas
      creditmanReq8B := reqtype ≠ .cas ∧ reqtype ≠ .amoLr }
  else
    { pcxAckStage := .s3
      s1MshrOp := .allocate
      mshrAllocationType := .ld
      noc1Op := request }

def amoSc : Ctl :=
  { pcxAckStage := .s1
    stallOnMatchedBypassedIndex := true
    stallOnMatchedMshr := true
    stallOnMshrAllocation := true
    s1MshrOp := .allocate
    mshrAllocationType := .st
    dtagOp := .read
    mesiRead := true
    lrscFlagRead := true
    s2MshrReadWriteCache := true
    dcacheOp := .writeTagcheckWayIfLrscSetFromMshr
    wmtRead := true
    wmtCompareOp := .tagcheck
    lruarrayWriteOp := .updateAccessBitsIfTagcheckWayLrscSet
    s3MshrOp := .deallocation
    lrscFlagWriteOp := .clearTagcheckWay
    cpxOp := .scAck }

def invalidation (cfg : Config) (fs : FetchState) (isLastInval : Bool) : Ctl :=
  { noc2AckStage :=
      if fs = .normal then (if cfg.parallelSrams then .s3 else .never)
      else if fs = .inval4 then .s1 else .never
    stallOnMatchedBypassedIndex := !(fs == .normal && cfg.parallelSrams)
    dtagOp := .read
    mesiRead := true
    dcacheOp := .readTagcheckWayIfM
    s3MshrOp := .updateStMshrImIfIndexTagcheckWayMatches
    mesiWriteOp := .invalidateTagcheckWayIfMes
    lrscFlagWriteOp := .clearTagcheckWay
    wmtRead := true
    wmtWriteOp := .demapTagcheckWayIfMes
    wmtCompareOp := .tagcheck
    lruarrayWriteOp := .invalidateIfTagcheckWayIsMes
    cpxOp := .invalidationIfTagcheckMesAndWaymapValid
    noc3Op :=
      if cfg.parallelSrams || isLastInval then .invalAckFromDcache else .invalAckIfTagcheckMFromDcache }

def downgrade (cfg : Config) (fs : FetchState) (isLastInval : Bool) : Ctl :=
  { noc2AckStage :=
      if fs = .normal then (if cfg.parallelSrams then .s3 else .never)
      else if fs = .inval4 then .s1 else .never
    stallOnMatchedBypassedIndex := true
    dtagOp := .read
    mesiRead := true
    dcacheOp := .readTagcheckWayIfM
    mesiWriteOp := .writeTagcheckWaySIfMe
    lrscFlagWriteOp := .clearTagcheckWay
    noc3Op :=
      if cfg.parallelSrams || isLastInval then .downgradeAckFromDcache
      else .downgradeAckIfTagcheckMFromDcache }

def ackdtLd (fs : FetchState) : Ctl :=
  if fs = .normal then fillEviction
  else
    { noc2AckStage := .s3
      dtagOp := .write
      dcacheOp := .writeLruWayFromNoc2
      s3MshrOp := .deallocation
      mesiWriteOp := .writeLruWayAckState
      wmtRead := true
      wmtWriteOp := .updateLruWayAndDedupEntry
      wmtCompareOp := .lru
      lruarrayWriteOp := .replacement
      cpxOp := .ldResponseFromNoc2 }

def ackdtStIm (fs : FetchState) : Ctl :=
  if fs = .normal then fillEviction
  else
    { noc2AckStage := .s3
      dtagOp := .write
      s2MshrReadWriteCache := true
      dcacheOp := .writeLruWayFromNoc2AndMshr
      s3MshrOp := .deallocation
      mesiWriteOp := .writeLruWayAckState
      lruarrayWriteOp := .replacement
      cpxOp := .stAck }

def ackdtStSm : Ctl :=
  { noc2AckStage := .s1
    stallOnMatchedBypassedIndex := true
    s2MshrReadWriteCache := true
    dcacheOp := .writeMshrWayFromMshr
    s3MshrOp := .deallocation
    mesiWriteOp := .writeMshrWayAckState
    wmtRead := true
    wmtCompareOp := .stbuf
    cpxOp := .stAckWithPossibleInval
    creditmanNoc1Unreserve := true }

/-- The eviction half leaves the LR/SC flag of the victim alone; the fill half sets it. -/
def ackdtLr (fs : FetchState) : Ctl :=
  if fs = .normal then { fillEviction with lrscFlagWriteOp := .none }
  else
    { noc2AckStage := .s3
      dtagOp := .write
      dcacheOp := .writeLruWayFromNoc2
      s3MshrOp := .deallocation
      mesiWriteOp := .writeLruWayAckState
      lrscFlagWriteOp := .setLruWay
      wmtRead := true
      wmtCompareOp := .lru
      lruarrayWriteOp := .replacement
      cpxOp := .atomicAckFromNoc2 }

end Decoder

open Decoder in
/-- The decoder of S1. The control bits of the homeid tables and of the configuration registers
are not modelled. -/
def decoder (cfg : Config) (d : DecoderIn) : Ctl :=
  match d.reqtype with
  | .cmo op =>
      { pcxAckStage := .s1
        stallOnMatchedBypassedIndex := true
        stallOnMatchedMshr := true
        stallOnMshrAllocation := true
        mshrAllocationType := .cmo
        s1MshrOp := .allocate
        creditmanNoc1Needed := 1
        noc1Op := .rvcmoRequestFromPcx op }
  | .loadNc => loadNc d.fetchState
  | .loadPrefetch => { pcxAckStage := .s1, cpxOp := .ldResponseBogusData }
  | .load =>
      { pcxAckStage := .s1
        stallOnMatchedBypassedIndex := true
        stallOnMatchedMshr := true
        stallOnMshrAllocation := true
        mshrAllocationType := .ld
        s1MshrOp := .allocate
        dtagOp := .read
        mesiRead := true
        dcacheOp := .readTagcheckWayIfMes
        s3MshrOp := .deallocationIfTagcheckMes
        cpxOp := .ldResponseIfTagcheckMesFromDcache
        wmtRead := true
        wmtWriteOp := .updateTagcheckWayAndDedupEntryIfTagcheckWayIsMes
        wmtCompareOp := .tagcheck
        lruarrayWriteOp := .updateAccessBitsIfTagcheckWayIsMes
        noc1Op := .dataLdRequestIfTagcheckMiss
        creditmanNoc1Needed := 1 }
  | .diagLoad => { pcxAckStage := .s1, dcacheOp := .diagRead, cpxOp := .ldResponseFromDcache }
  | .ifill =>
      { pcxAckStage := .s1
        stallOnMshrAllocation := true
        mshrAllocationType := .ifill
        s1MshrOp := .allocate
        noc1Op := .instructionLdRequest
        creditmanNoc1Needed := 1 }
  | .writethrough => writethrough d.fetchState d.intVecDis
  | .store => store d.hitStbuf
  | .diagStore => { pcxAckStage := .s2, dcacheOp := .diagWrite, cpxOp := .stAck }
  | .lineFlush => lineFlush d.fetchState
  | .amoSc => amoSc
  | .cas => atomic d.fetchState .cas .dataCasRequestFromPcx
  | .swpLoadstub => atomic d.fetchState .swpLoadstub .dataSwapRequestFromPcx
  | .amoLr => atomic d.fetchState .amoLr .dataLrRequest
  | .amo op => atomic d.fetchState (.amo op) (.dataAmoRequestFromPcx op)
  | .icacheInvalidation =>
      { cpxOp := .icacheInvalidation
        noc2AckStage := if d.isLastInval then .s1 else .never
        noc3Op := if d.isLastInval then .icacheInvalAck else .none }
  | .icacheSelfInvalidation => { pcxAckStage := .s1, cpxOp := .icacheInvalidation }
  | .dcacheSelfInvalidation =>
      { pcxAckStage := .s1
        stallOnMatchedBypassedIndex := true
        dtagOp := .read
        wmtRead := true
        wmtWriteOp := .demapTagcheckWayIfMes
        wmtCompareOp := .tagcheck
        cpxOp := .dcacheInvalidation }
  | .invalidation => invalidation cfg d.fetchState d.isLastInval
  | .downgrade => downgrade cfg d.fetchState d.isLastInval
  | .ackdtLd => ackdtLd d.fetchState
  | .ackdtLdNc =>
      { noc2AckStage := .s3
        stallOnMatchedBypassedIndex := true
        s3MshrOp := .deallocation
        cpxOp := .ldResponseFromNoc2 }
  | .ackdtIfill => { noc2AckStage := .s3, s3MshrOp := .deallocation, cpxOp := .ifillResponseFromNoc2 }
  | .ackdtStIm => ackdtStIm d.fetchState
  | .ackdtStSm => ackdtStSm
  | .ackWritethrough =>
      { noc2AckStage := .s1
        stallOnMatchedBypassedIndex := true
        s3MshrOp := .deallocation
        cpxOp := .stAck }
  | .ackPrefetch => { noc2AckStage := .s1 }
  | .ackAtomic =>
      { noc2AckStage := .s3
        stallOnMatchedBypassedIndex := true
        s3MshrOp := .deallocation
        cpxOp := .atomicAckFromNoc2 }
  | .ackCmo =>
      { noc2AckStage := .s3
        stallOnMatchedBypassedIndex := true
        s3MshrOp := .deallocation
        cpxOp := .cmoAckFromNoc2 }
  | .ackdtLr => ackdtLr d.fetchState
  | .l2Interrupt => { noc2AckStage := .s3, cpxOp := .interrupt }
  | .pcxInterrupt =>
      if d.interruptBroadcast then { pcxAckStage := .s1, cpxOp := .broadcastAck }
      else
        { pcxAckStage := .s3
          noc1Op := .interruptFwd
          creditmanNoc1Needed := 1
          creditmanReq8B := true }
  | .loadConfigReg => { pcxAckStage := .s1, cpxOp := .loadConfigRegResponse }
  | .writeConfigReg => { pcxAckStage := .s2, cpxOp := .stAck }
  | .hmcFill => { noc2AckStage := .s2 }
  | .hmcDiagLoad => { pcxAckStage := .s1, cpxOp := .ldResponseFromCsm }
  | .hmcDiagStore => { pcxAckStage := .s2, cpxOp := .stAck }
  | .hmcFlush => { pcxAckStage := .s1, cpxOp := .stAck }
  | .ignore => { pcxAckStage := .s1 }
  | .none => {}

namespace FetchState

/-- `fetch_is_pcx_*`: the PCX requests that take a second pass. -/
def isTwoPass (reqtype : Reqtype) (intVecDis : Bool) : Bool :=
  match reqtype with
  | .cas | .swpLoadstub | .amoLr | .amo _ | .loadNc | .lineFlush => true
  | .writethrough => !intVecDis
  | _ => false

/-- `fetch_state_next_s1` when S1 is not stalled. -/
def next (cfg : Config) (d : DecoderIn) : FetchState :=
  match d.fetchState with
  | .normal =>
      if isTwoPass d.reqtype d.intVecDis then .pcxWritebackDone
      else match d.reqtype with
        | .invalidation | .downgrade => if cfg.parallelSrams then .normal else .inval2
        | .icacheInvalidation => if cfg.icache64B then .normal else .icacheInval2
        | .ackdtLd | .ackdtStIm | .ackdtLr => .noc2WritebackDone
        | _ => .normal
  | .inval2 => .inval3
  | .inval3 => .inval4
  | .pcxWritebackDone | .noc2WritebackDone | .inval4 | .icacheInval2 => .normal

end FetchState

end OpenPiton.L15
