import Mathlib.Algebra.Group.Nat.Defs
import Mathlib.Data.Nat.Basic

namespace OpenPiton.L15

/-- How the data array is organised: `serial` builds read a line of 16, 32 or 64 bytes sixteen
bytes a beat; `PARALLEL_SRAMS` builds read the 64 bytes at once. -/
inductive Organisation
  | serial16 | serial32 | serial64 | parallel64
  deriving DecidableEq, Repr

/-- The build: `PITON_ARIANE_HPDC`, `ICACHE_64B`, the line, the number of MSHRs (one a thread) and
the log2 sizes of the L1.5 and of the L1D. -/
structure Config where
  organisation : Organisation
  hpdc : Bool
  icache64B : Bool
  threads : Nat
  threads_pos : 0 < threads := by decide
  indexWidth : Nat
  wayWidth : Nat
  l1dIndexWidth : Nat
  l1dWayWidth : Nat
  deriving DecidableEq, Repr

namespace Config

/-- Two threads, 8 KB of four ways in both caches, lines of 16 bytes. -/
def default : Config where
  organisation := .serial16
  hpdc := false
  icache64B := false
  threads := 2
  indexWidth := 7
  wayWidth := 2
  l1dIndexWidth := 7
  l1dWayWidth := 2

variable (cfg : Config)

/-- `L15_L1D_LINE_SIZE`. -/
def lineSize : Nat :=
  match cfg.organisation with
  | .serial16 => 16
  | .serial32 => 32
  | .serial64 | .parallel64 => 64

def parallelSrams : Bool :=
  match cfg.organisation with
  | .parallel64 => true
  | _ => false

/-- `L15_L1D_LINE_SIZE / L15_DATA_ARRAY_SIZE - 1`, the last beat of a burst; 0 with `PARALLEL_SRAMS`. -/
def lastBeat : Nat :=
  match cfg.organisation with
  | .serial16 | .parallel64 => 0
  | .serial32 => 1
  | .serial64 => 3

def lineWords : Nat := cfg.lineSize / 8

def ways : Nat := 2 ^ cfg.wayWidth

def l1dWays : Nat := 2 ^ cfg.l1dWayWidth

def cacheIndex (address : Nat) : Nat := address / cfg.lineSize % 2 ^ cfg.indexWidth

def cacheTag (address : Nat) : Nat := address / cfg.lineSize / 2 ^ cfg.indexWidth

def l1dIndex (address : Nat) : Nat := address / cfg.lineSize % 2 ^ cfg.l1dIndexWidth

/-- The part of the L1.5 index above the L1D index, `L15_WMT_ALIAS`. -/
def wmtAlias (address : Nat) : Nat :=
  if cfg.l1dIndexWidth < cfg.indexWidth then
    address / cfg.lineSize / 2 ^ cfg.l1dIndexWidth % 2 ^ (cfg.indexWidth - cfg.l1dIndexWidth)
  else 0

/-- The subline of the address, in the bits a line has for it. -/
def reqSubline (address : Nat) : Nat := address / 16 % (cfg.lineSize / 16)

/-- `{tag, index, 0}`. -/
def lineAddress (tag index : Nat) : Nat := (tag * 2 ^ cfg.indexWidth + index) * cfg.lineSize

/-- The bits `[19:L15_IDX_LOW]` compared against load MSHRs. -/
def partialTag (address : Nat) : Nat := address % 2 ^ 20 / cfg.lineSize

/-- `L15_THREADID_MASK`; there is one MSHR a thread, under the thread's number. -/
def threadMask (threadid : Nat) : Nat := threadid % cfg.threads

def flushWay (address : Nat) : Nat := address / 2 ^ 24 % cfg.ways

end Config

abbrev Word := BitVec 64

inductive Mesi
  | i | s | e | m
  deriving DecidableEq, Repr

def Mesi.me : Mesi → Bool
  | .m | .e => true
  | _ => false

def Mesi.mes : Mesi → Bool
  | .i => false
  | _ => true

inductive TransState
  | none | sm | im | waitAck
  deriving DecidableEq, Repr

inductive MshrType
  | cmo | ifill | ld | st
  deriving DecidableEq, Repr

inductive CmoOp
  | inval | clean | flush
  deriving DecidableEq, Repr

inductive AluOp
  | add | and | or | xor | max | maxu | min | minu
  deriving DecidableEq, Repr

inductive AmoOp
  | none | lr | sc | swap | alu (op : AluOp) | cas1 | cas2
  deriving DecidableEq, Repr

inductive MsgSize
  | b0 | b1 | b2 | b4 | b8 | b16 | b32 | b64
  deriving DecidableEq, Repr

/-- `other` stands for the types that are decoded and dropped (FP, stream and forward requests),
`unknown` for the values no case of the predecoder names. -/
inductive PcxRqtype
  | cmo (op : Option CmoOp) | load | ifill | store | amo (op : AmoOp) | interrupt | other | unknown
  deriving DecidableEq, Repr

structure PcxReq where
  rqtype : PcxRqtype := .unknown
  address : Nat := 0
  threadid : Nat := 0
  nc : Bool := false
  prefetch : Bool := false
  invalidateCacheline : Bool := false
  l1rplway : Nat := 0
  size : MsgSize := .b8
  data : Word := 0
  dataNextEntry : Word := 0
  deriving DecidableEq, Repr

inductive Noc2Type
  | storeFwd | invFwd | loadFwd | dataAck | ncLoadMemAck | nodataAck | ncStoreMemAck | interrupt | other
  deriving DecidableEq, Repr

structure Noc2Msg where
  reqtype : Noc2Type := .other
  icacheType : Bool := false
  mshrType : MshrType := .cmo
  mshrIndex : Nat := 0
  hmcFill : Bool := false
  ackState : Mesi := .i
  fwdSubcachelineVector : BitVec 4 := 0
  address : Nat := 0
  data : List Word := []
  deriving DecidableEq, Repr

/-- `L15_REQTYPE_*`; the eight `AMO_ADD`..`AMO_MINU` and the three `CMO_*` carry their operation. -/
inductive Reqtype
  | none | ignore | ifill | store | cas | swpLoadstub | invalidation | downgrade
  | ackdtLdNc | ackdtIfill | ackdtLd | ackdtStIm | ackdtStSm | ackWritethrough | ackAtomic
  | loadNc | loadPrefetch | writethrough | icacheInvalidation | pcxInterrupt | l2Interrupt | load
  | writeConfigReg | loadConfigReg | diagLoad | diagStore | lineFlush
  | hmcFill | hmcDiagLoad | hmcDiagStore | hmcFlush | ackPrefetch
  | icacheSelfInvalidation | dcacheSelfInvalidation
  | amoLr | amoSc | amo (op : AluOp) | ackdtLr | cmo (op : CmoOp) | ackCmo
  deriving DecidableEq, Repr

inductive FetchState
  | normal | pcxWritebackDone | inval2 | inval3 | inval4 | noc2WritebackDone | icacheInval2
  deriving DecidableEq, Repr

inductive Source
  | invalid | pcx | noc2
  deriving DecidableEq, Repr

inductive AckStage
  | never | s1 | s2 | s3
  deriving DecidableEq, Repr

inductive S1MshrOp
  | none | allocate | updateWritecache
  deriving DecidableEq, Repr

inductive DtagOp
  | none | read | write
  deriving DecidableEq, Repr

inductive DcacheOp
  | none | readTagcheckWayIfM | readTagcheckWayIfMes | readLruWayIfM | readFlushWayIfM
  | writeTagcheckWayIfMeFromMshr | writeTagcheckWayIfLrscSetFromMshr | writeLruWayFromNoc2
  | writeLruWayFromNoc2AndMshr | writeMshrWayFromMshr | diagRead | diagWrite
  deriving DecidableEq, Repr

inductive MesiWriteOp
  | none | writeTagcheckWaySIfMe | writeTagcheckWayMIfE | invalidateTagcheckWayIfMes
  | writeLruWayAckState | writeMshrWayAckState | invalidateFlushWayIfMes
  deriving DecidableEq, Repr

inductive LrscFlagWriteOp
  | none | setLruWay | clearTagcheckWay | clearLruWay | clearFlushWay
  deriving DecidableEq, Repr

inductive S3MshrOp
  | none | deallocation | deallocationIfTagcheckMes | deallocationIfTagcheckMeElseUpdateStateStmshr
  | updateStMshrImIfIndexTagcheckWayMatches | updateStMshrImIfIndexLruWayMatches | updateStMshrWaitAck
  deriving DecidableEq, Repr

inductive WmtWriteOp
  | none | demapTagcheckWayIfMes | demapLruWayIfMes | demapFlushWayIfMes
  | updateLruWayAndDedupEntry | updateTagcheckWayAndDedupEntryIfTagcheckWayIsMes
  deriving DecidableEq, Repr

inductive WmtCompareOp
  | none | lru | tagcheck | flush | stbuf
  deriving DecidableEq, Repr

inductive LruarrayWriteOp
  | none | updateAccessBitsIfTagcheckWayIsMes | updateAccessBitsIfTagcheckWayLrscSet | eviction
  | replacement | invalidateIfTagcheckWayIsMes | invalidateIfFlushWayIsMes
  deriving DecidableEq, Repr

inductive CpxOp
  | none | icacheInvalidation | dcacheInvalidation | invalidationIfTagcheckMesAndWaymapValid
  | invalidationIfLruMesAndWaymapValid | invalidationIfFlushMesAndWaymapValid
  | ldResponseBogusData | ldResponseIfTagcheckMesFromDcache | ldResponseFromNoc2 | stAck | scAck
  | stAckWithPossibleInval | stAckIfTagcheckMeWithPossibleInval | ifillResponseFromNoc2
  | atomicAckFromNoc2 | broadcastAck | interrupt | loadConfigRegResponse | ldResponseFromDcache
  | ldResponseFromCsm | cmoAckFromNoc2
  deriving DecidableEq, Repr

/-- `L15_NOC1_GEN_*`; the requests that only carry PCX data are one constructor each with the AMO
operation they ask for. -/
inductive Noc1Op
  | none | writebackGuardIfLruM | writebackGuardIfFlushM | writebackGuardIfTagcheckM
  | dataLdRequest | dataLdRequestIfTagcheckMiss | instructionLdRequest | dataWritethroughRequestFromPcx
  | dataStUpgradeIfTagcheckSElseStFillIfTagcheckI | dataLrRequest | dataCasRequestFromPcx
  | dataSwapRequestFromPcx | dataAmoRequestFromPcx (op : AluOp) | interruptFwd
  | rvcmoRequestFromPcx (op : CmoOp)
  deriving DecidableEq, Repr

inductive Noc3Op
  | none | writebackIfTagcheckMFromDcache | writebackIfLruMFromDcache | writebackIfFlushMFromDcache
  | invalAckFromDcache | invalAckIfTagcheckMFromDcache | downgradeAckFromDcache
  | downgradeAckIfTagcheckMFromDcache | icacheInvalAck
  deriving DecidableEq, Repr

inductive Noc1Reqtype
  | none | writebackGuard | ldRequest | ifillRequest | writethroughRequest | stUpgradeRequest
  | stFillRequest | lrRequest | casRequest | swapRequest | amoRequest (op : AluOp) | interruptFwd
  | rvcmoRequest (op : CmoOp)
  deriving DecidableEq, Repr

inductive Noc3Reqtype
  | none | writeback | invalAck | downgradeAck | icacheInvalAck
  deriving DecidableEq, Repr

inductive CpxRestype
  | none | load | ifill1 | inval | storeAck | interrupt | atomicRes | cmoRes
  deriving DecidableEq, Repr

end OpenPiton.L15
