import OpenPiton.L15.Messages
import OpenPiton.L15.WriteBack

namespace OpenPiton.L15

namespace Reqtype

/-- A pass over a block that a forward asks for. -/
def isPass (r : Reqtype) : Bool := r.isForward || r == .icacheInvalidation

end Reqtype

namespace FetchState

/-- The subline of its block a pass is about. -/
def subline : FetchState → Nat
  | .inval2 => 1
  | .inval3 => 2
  | .inval4 => 3
  | _ => 0

/-- The passes that follow under the message of the first. -/
def passes : FetchState → List FetchState
  | .inval2 => [.inval2, .inval3, .inval4]
  | .inval3 => [.inval3, .inval4]
  | .inval4 => [.inval4]
  | .icacheInval2 => [.icacheInval2]
  | .normal | .pcxWritebackDone | .noc2WritebackDone => []

end FetchState

namespace Noc2Msg

def passReqtype (m : Noc2Msg) : Reqtype :=
  if m.icacheType then .icacheInvalidation
  else match m.reqtype with
    | .loadFwd => .downgrade
    | _ => .invalidation

def passAddress (m : Noc2Msg) (fs : FetchState) : Nat :=
  if m.icacheType then Predecode.icacheInvalAddress fs m.address else Predecode.dataInvalAddress fs m.address

def isLastInval (cfg : Config) (m : Noc2Msg) (fs : FetchState) : Bool :=
  if m.icacheType then Predecode.isLastIcacheInval cfg fs m.fwdSubcachelineVector
  else Predecode.isLastDataInval cfg fs m.fwdSubcachelineVector

/-- The passes a message takes, if it is a forward. -/
def passes (cfg : Config) (m : Noc2Msg) : List FetchState :=
  if m.dataForward then
    if cfg.parallelSrams then [.normal] else [.normal, .inval2, .inval3, .inval4]
  else if m.icacheForward then
    if cfg.icache64B then [.normal] else [.normal, .icacheInval2]
  else []

def ackType (m : Noc2Msg) : Noc3Reqtype :=
  if m.icacheType then .icacheInvalAck
  else match m.reqtype with
    | .loadFwd => .downgradeAck
    | _ => .invalAck

end Noc2Msg

/-- A pass that has left S2: the message it went by, the state the tag check found and the number of
ways that held the line. -/
structure Pass where
  msg : Noc2Msg
  fetchState : FetchState
  found : Mesi
  copies : Nat
  deriving DecidableEq, Repr

/-- An acknowledgement of a forward as `noc3encoder` sends it. -/
structure FwdAck where
  type : Noc3Reqtype
  address : Nat
  lastSubline : Bool
  withData : Bool
  deriving DecidableEq, Repr

namespace FwdAck

/-- `msg_options_4[MSG_LAST_SUBLINE]` goes by the vector and the subline. -/
def ofReq (r : State.Noc3Req) : Option FwdAck :=
  if r.type = .writeback then none
  else
    some
      { type := r.type
        address := r.address
        lastSubline := State.lastSubline r.fwdackVector == r.sequenceid || r.type == .icacheInvalAck
        withData := r.withData }

end FwdAck

namespace Pass

def key (p : Pass) : Noc2Msg × FetchState := (p.msg, p.fetchState)

def address (p : Pass) : Nat := p.msg.passAddress p.fetchState

def sublineId (p : Pass) : Nat := p.address / 16 % 4

/-- What a pass answers: the last one always, the others when they have found the line in M. -/
def ack (cfg : Config) (p : Pass) : Option FwdAck :=
  if p.msg.isLastInval cfg p.fetchState || !p.msg.icacheType && p.found == .m then
    some
      { type := p.msg.ackType
        address := p.address
        lastSubline :=
          State.lastSubline p.msg.fwdSubcachelineVector == p.sublineId || p.msg.icacheType
        withData := !p.msg.icacheType && p.found == .m }
  else none

/-- The line of a pass is gone from the cache, or at most shared after a `LOAD_FWD`. -/
def Cleared (cfg : Config) (p : Pass) (s : State) : Prop :=
  ∀ way < cfg.ways, s.arrays.dtag (cfg.cacheIndex p.address) way = cfg.cacheTag p.address →
    s.arrays.mesi.rows (cfg.cacheIndex p.address) way = .i ∨
      p.msg.reqtype = .loadFwd ∧ s.arrays.mesi.rows (cfg.cacheIndex p.address) way = .s

end Pass

/-- The L1.5 with the NoC2 messages it has begun and those it has acknowledged, the message S2 was
filled by, the passes that have left S2 and the acknowledgements the NoC3 buffer has taken. `block`
holds the last of the passes, back to the first of their message, while no other request has left S2. -/
structure Answered where
  l15 : State
  begun : List Noc2Msg
  consumed : List Noc2Msg
  msgS2 : Noc2Msg
  passes : List Pass
  block : List Pass
  acks : List FwdAck

namespace State

variable (cfg : Config)

def passInS2 (s : State) : Bool := s.s2.val && s.s2.d.reqtype.isPass

/-- The ways that hold the line of an address. -/
def copies (s : State) (address : Nat) : Nat :=
  (List.range cfg.ways).countP fun way =>
    cfg.cacheTag address == s.arrays.dtag (cfg.cacheIndex address) way &&
      s.arrays.mesi.rows (cfg.cacheIndex address) way != .i

/-- The acknowledgement S3 puts to the NoC3 buffer. -/
def answerS3 (s : State) : Option FwdAck := (s.noc3encoderReq cfg).bind FwdAck.ofReq

/-- The passes of the message under way that S1 has still to take. -/
def passesS1 (s : State) : List (Noc2Msg × FetchState) :=
  s.fetchState.passes.map (s.noc2, ·)

/-- No message comes in under the second pass of an instruction-cache invalidation. -/
def Undisturbed (s : State) (i : Input) : Prop :=
  s.fetchState = .icacheInval2 → s.noc2State = .idle → s.acceptS1 cfg i = true ∨ i.noc2 = none

instance (s : State) (i : Input) : Decidable (Undisturbed cfg s i) := by unfold Undisturbed; infer_instance

end State

namespace Answered

variable (cfg : Config)

def passS2 (t : Answered) : Option Pass :=
  if t.l15.passInS2 then
    some
      { msg := t.msgS2
        fetchState := t.l15.s2.d.fetchState
        found := t.l15.tagcheckStateS2 cfg
        copies := t.l15.copies cfg t.l15.s2.address }
  else none

def blockNext (block : List Pass) : Option Pass → List Pass
  | some p => if p.fetchState = .normal then [p] else block ++ [p]
  | none => []

def step (t : Answered) (i : Input) : Answered where
  l15 := t.l15.step cfg i
  begun := t.begun ++ if t.l15.noc2HeaderAck cfg i then [t.l15.noc2] else []
  consumed := t.consumed ++
    if t.l15.noc2State = .waitingAck ∧ t.l15.noc2Ack cfg i = true then [t.l15.noc2] else []
  msgS2 := if t.l15.acceptS1 cfg i then t.l15.noc2 else t.msgS2
  passes := t.passes ++ if t.l15.stallS2 cfg i then [] else (t.passS2 cfg).toList
  block := if t.l15.s2.val && !t.l15.stallS2 cfg i then blockNext t.block (t.passS2 cfg) else t.block
  acks := t.acks ++ (if i.noc3Ack then t.l15.answerS3 cfg else none).toList

def Init (t : Answered) : Prop :=
  t.l15.Init ∧ t.begun = [] ∧ t.consumed = [] ∧ t.passes = [] ∧ t.block = [] ∧ t.acks = []

def passesS2 (t : Answered) : List (Noc2Msg × FetchState) :=
  if t.l15.passInS2 then [(t.msgS2, t.l15.s2.d.fetchState)] else []

/-- The message whose first pass S1 has taken and which is not acknowledged. -/
def waiting (t : Answered) : List Noc2Msg :=
  if t.l15.noc2State = .waitingAck ∧ t.l15.noc2New = false then [t.l15.noc2] else []

end Answered

section Decoder

variable {cfg : Config} {d : DecoderIn} {fs : FetchState} {e : MshrEntry} {m : Noc2Msg}

theorem ofNoc2_isPass : (Predecode.ofNoc2 cfg fs e m).reqtype.isPass = m.forward := by
  rw [Reqtype.isPass, ofNoc2_isForward, Bool.eq_iff_iff, Bool.or_eq_true, beq_iff_eq, ofNoc2_icacheInvalidation]
  simp only [Noc2Msg.dataForward, Noc2Msg.icacheForward]
  cases m.forward <;> cases m.icacheType <;> simp

theorem ofNoc2_forward (h : m.forward = true) :
    (Predecode.ofNoc2 cfg fs e m).reqtype = m.passReqtype ∧
      (Predecode.ofNoc2 cfg fs e m).address = m.passAddress fs ∧
      (Predecode.ofNoc2 cfg fs e m).fwdSubcachelineVector = m.fwdSubcachelineVector ∧
      (Predecode.ofNoc2 cfg fs e m).isLastInval = m.isLastInval cfg fs := by
  revert h
  simp only [Predecode.ofNoc2, Noc2Msg.forward, Noc2Msg.passReqtype, Noc2Msg.passAddress, Noc2Msg.isLastInval]
  cases m.reqtype with
  | storeFwd | invFwd | loadFwd => cases m.icacheType <;> simp
  | _ => simp

theorem ofNoc2_isFill (h : (Predecode.ofNoc2 cfg fs e m).reqtype.isFill = true) : m.forward = false := by
  rw [← @ofNoc2_isPass cfg fs e]
  revert h
  cases (Predecode.ofNoc2 cfg fs e m).reqtype <;> simp [Reqtype.isFill, Reqtype.isPass, Reqtype.isForward]

theorem ofPcx_isPass {pcx : PcxReq} : (Predecode.ofPcx cfg pcx).reqtype.isPass = false := by
  rcases ofPcx_notNoc2 cfg pcx with h | h
  · rw [h]; rfl
  · revert h
    cases (Predecode.ofPcx cfg pcx).reqtype <;> simp [Reqtype.fromNoc2, Reqtype.isPass, Reqtype.isForward]

/-- Only the passes of forwards answer on NoC3 with something else than a write-back. -/
theorem decoder_answers (h : d.reqtype.isPass = false) :
    (decoder cfg d).noc3Op = .none ∨ (decoder cfg d).noc3Op.type = .writeback := by
  obtain ⟨fs, reqtype, last, dis, hit, broadcast⟩ := d
  cases reqtype with
  | writethrough => cases dis <;> cases fs <;> first | exact .inl rfl | exact .inr rfl
  | store => cases hit <;> exact .inl rfl
  | pcxInterrupt => cases broadcast <;> exact .inl rfl
  | loadNc | lineFlush | cas | swpLoadstub | amoLr | amo | ackdtLd | ackdtStIm | ackdtLr =>
      cases fs <;> first | exact .inl rfl | exact .inr rfl
  | invalidation | downgrade | icacheInvalidation => cases h
  | _ => exact .inl rfl

theorem decoder_pass (h : d.reqtype.isPass = true) :
    (decoder cfg d).noc1Op = .none ∧ (decoder cfg d).pcxAckStage = .never ∧
      (d.reqtype ≠ .icacheInvalidation → (decoder cfg d).mesiRead = true ∧ (decoder cfg d).dtagOp = .read) ∧
      (decoder cfg d).mesiWriteOp =
        match d.reqtype with
        | .icacheInvalidation => .none
        | .downgrade => .writeTagcheckWaySIfMe
        | _ => .invalidateTagcheckWayIfMes := by
  obtain ⟨fs, reqtype, last, dis, hit, broadcast⟩ := d
  cases reqtype with
  | invalidation | downgrade => exact ⟨rfl, rfl, fun _ => ⟨rfl, rfl⟩, rfl⟩
  | icacheInvalidation => exact ⟨rfl, rfl, fun hne => absurd rfl hne, rfl⟩
  | _ => cases h

theorem decoder_writesTag (h : (decoder cfg d).dtagOp = .write) :
    d.reqtype.isFill = true ∧ d.fetchState ≠ .normal := by
  obtain ⟨fs, reqtype, last, dis, hit, broadcast⟩ := d
  revert h
  cases reqtype with
  | writethrough => cases dis <;> cases fs <;> intro h <;> cases h
  | store => cases hit <;> intro h <;> cases h
  | pcxInterrupt => cases broadcast <;> intro h <;> cases h
  | ackdtLd | ackdtStIm | ackdtLr =>
      cases fs with
      | normal => intro h; cases h
      | _ => exact fun _ => ⟨rfl, by simp⟩
  | loadNc | lineFlush | cas | swpLoadstub | amoLr | amo => cases fs <;> intro h <;> cases h
  | _ => intro h; cases h

theorem next_passes (h : d.fetchState ≠ .normal) : (FetchState.next cfg d).passes = d.fetchState.passes.tail := by
  obtain ⟨fs, reqtype, last, dis, hit, broadcast⟩ := d
  cases fs with
  | normal => exact absurd rfl h
  | _ => rfl

theorem next_passes_forward (hn : d.fetchState = .normal) (h : m.forward = true) (hr : d.reqtype = m.passReqtype) :
    .normal :: (FetchState.next cfg d).passes = m.passes cfg := by
  obtain ⟨fs, reqtype, last, dis, hit, broadcast⟩ := d
  simp only at hn hr
  subst hn hr
  simp only [Noc2Msg.passReqtype, Noc2Msg.passes, Noc2Msg.dataForward, Noc2Msg.icacheForward, h]
  cases m.icacheType with
  | true => cases hi : cfg.icache64B <;> simp [FetchState.next, FetchState.isTwoPass, FetchState.passes, hi]
  | false =>
      cases hp : cfg.parallelSrams <;> cases m.reqtype <;>
        simp [FetchState.next, FetchState.isTwoPass, FetchState.passes, hp]

theorem next_passes_other (hn : d.fetchState = .normal) (h : d.reqtype.isPass = false) :
    (FetchState.next cfg d).passes = [] := by
  obtain ⟨fs, reqtype, last, dis, hit, broadcast⟩ := d
  simp only at hn
  subst hn
  cases reqtype with
  | invalidation | downgrade | icacheInvalidation => cases h
  | writethrough => cases dis <;> rfl
  | _ => rfl

end Decoder

namespace State

variable {cfg : Config} {s : State} {i : Input}

/-! ## One beat a pass -/

section Serial16

variable (h16 : cfg.organisation = .serial16)
include h16

theorem parallelSrams_serial16 : cfg.parallelSrams = false := by simp [Config.parallelSrams, h16]

theorem lastBeat_serial16 : cfg.lastBeat = 0 := by simp [Config.lastBeat, h16]

theorem stallS2_serial16 (hb : Beats cfg s) : s.stallS2 cfg i = s.stallRealS2 cfg i := by
  have hle := hb.le
  rw [lastBeat_serial16 h16, Nat.le_zero] at hle
  simp [stallS2, stallLoadS2, lastBeat_serial16 h16, hle]

theorem s3_cacheSubline_serial16 (hb : Beats cfg s) (hv : s.s3.val = true) : s.s3.cacheSubline = 0 := by
  cases hbu : s.s3.burst with
  | false => exact hb.single hv hbu
  | true =>
      by_contra h0
      have hle := hb.le
      have hlast := hb.last hv hbu (by rwa [lastBeat_serial16 h16])
      rw [lastBeat_serial16 h16] at hle
      omega

theorem single_of_undisturbed (hb : Beats cfg s) (hu : Undisturbed cfg s i) : Single cfg s i :=
  ⟨fun hv _ _ h0 => absurd (s3_cacheSubline_serial16 h16 hb hv) h0, hu⟩

end Serial16

/-! ## What S2 has of its message -/

structure Carries (cfg : Config) (s2 : S2) (m : Noc2Msg) : Prop where
  forward : m.forward = true
  reqtype : s2.d.reqtype = m.passReqtype
  address : s2.address = m.passAddress s2.d.fetchState
  vector : s2.fwdSubcachelineVector = m.fwdSubcachelineVector
  last : s2.d.isLastInval = m.isLastInval cfg s2.d.fetchState

theorem Carries.isPass {s2 : S2} {m : Noc2Msg} (h : Carries cfg s2 m) : s2.d.reqtype.isPass = true := by
  rw [h.reqtype, Noc2Msg.passReqtype]
  cases m.icacheType <;> cases m.reqtype <;> rfl

theorem preS1_noc2 (h : (s.preS1 cfg).source = .noc2) :
    let p := Predecode.ofNoc2 cfg s.fetchState (s.mshr (cfg.threadMask s.noc2.mshrIndex)) s.noc2
    (s.preS1 cfg).reqtype = p.reqtype ∧ (s.preS1 cfg).address = p.address ∧
      (s.preS1 cfg).fwdSubcachelineVector = p.fwdSubcachelineVector ∧ (s.preS1 cfg).isLastInval = p.isLastInval := by
  rw [preS1_source] at h
  simp [preS1, predecode, h]

theorem isPass_preS1 (h : (s.preS1 cfg).source = .noc2) : (s.preS1 cfg).reqtype.isPass = s.noc2.forward := by
  rw [(preS1_noc2 h).1, ofNoc2_isPass]

theorem source_of_isPass (h : (s.preS1 cfg).reqtype.isPass = true) : (s.preS1 cfg).source = .noc2 := by
  cases hs : (s.preS1 cfg).source with
  | noc2 => rfl
  | pcx => rw [(preS1_of_pcx hs).1, ofPcx_isPass] at h; cases h
  | invalid =>
      rw [(preS1_of_invalid (by simp [Predecode.val, hs])).2] at h
      cases h

theorem carries_s2Latch (h : (s.preS1 cfg).reqtype.isPass = true) : Carries cfg (s.s2Latch cfg i) s.noc2 := by
  have hs := source_of_isPass h
  have hf : s.noc2.forward = true := by rw [← isPass_preS1 hs, h]
  obtain ⟨hr, ha, hv, hl⟩ := preS1_noc2 hs
  obtain ⟨gr, ga, gv, gl⟩ := @ofNoc2_forward cfg s.fetchState
    (s.mshr (cfg.threadMask s.noc2.mshrIndex)) s.noc2 hf
  exact ⟨hf, hr.trans gr, ha.trans ga, hv.trans gv, hl.trans gl⟩

/-! ## Answers -/

theorem noc3Op_pass {d : DecoderIn} {m : Noc2Msg} (hser : cfg.parallelSrams = false) (h : d.reqtype = m.passReqtype) :
    (decoder cfg d).noc3Op =
      if m.icacheType then if d.isLastInval then .icacheInvalAck else .none
      else if m.reqtype = .loadFwd then
        if d.isLastInval then .downgradeAckFromDcache else .downgradeAckIfTagcheckMFromDcache
      else if d.isLastInval then .invalAckFromDcache else .invalAckIfTagcheckMFromDcache := by
  obtain ⟨fs, reqtype, last, dis, hit, broadcast⟩ := d
  simp only [Noc2Msg.passReqtype] at h
  subst h
  cases m.icacheType with
  | true => rfl
  | false => cases m.reqtype <;> simp [decoder, Decoder.invalidation, Decoder.downgrade, hser]

theorem answerS3_of_stall (h3 : s.stallS3 cfg i = true) :
    (s.step cfg i).answerS3 cfg = if (s.step cfg i).noc3Staled then none else s.answerS3 cfg := by
  have hs3 : (s.step cfg i).s3 = s.s3 := s3Next_of_stall h3
  have hstaled : (s.step cfg i).noc3Staled = false → s.noc3Staled = false := by
    intro hst
    by_contra hs
    simp [step, staledNext, hs, h3] at hst
  have hval : (s.step cfg i).noc3encoderReqVal cfg =
      (!(s.step cfg i).noc3Staled && (s.s3.val && s.noc3ReqValS3 cfg && (cfg.parallelSrams || !s.s3.noc3Wb || s.atLastBeatS3 cfg))) := by
    have hr : (s.step cfg i).noc3ReqValS3 cfg = s.noc3ReqValS3 cfg := by simp only [noc3ReqValS3, hs3]
    have hl : (s.step cfg i).atLastBeatS3 cfg = s.atLastBeatS3 cfg := by rw [atLastBeatS3, atLastBeatS3, hs3]
    rw [noc3encoderReqVal, hr, hl, hs3]
    cases s.s3.val <;> cases (s.step cfg i).noc3Staled <;> simp
  rw [answerS3, noc3encoderReq, hval]
  cases hst : (s.step cfg i).noc3Staled with
  | true => simp
  | false =>
      rw [answerS3, noc3encoderReq, noc3encoderReqVal, hstaled hst]
      have ht : (s.step cfg i).noc3TypeS3 cfg = s.noc3TypeS3 cfg := by simp only [noc3TypeS3, hs3]
      have ha : (s.step cfg i).noc3AddressS3 cfg = s.noc3AddressS3 cfg := by simp only [noc3AddressS3, hs3]
      have hd : (s.step cfg i).noc3WithDataS3 cfg = s.noc3WithDataS3 cfg := by simp only [noc3WithDataS3, hs3]
      simp only [Bool.not_false, Bool.true_and, Bool.and_true, ht, ha, hd, hs3, Bool.false_eq_true, if_false]
      split <;> rfl

theorem answerS3_of_other (hv : (s.s3.val && s.s3.d.reqtype.isPass) = false) : s.answerS3 cfg = none := by
  rw [answerS3]
  cases hr : s.noc3encoderReq cfg with
  | none => rfl
  | some r =>
      rw [noc3encoderReq] at hr
      split at hr
      case isFalse => cases hr
      case isTrue hval =>
        simp only [noc3encoderReqVal, Bool.and_eq_true] at hval
        rw [hval.1.1.1, Bool.true_and] at hv
        have ht : r.type = (s.s3.ctl cfg).noc3Op.type := by rw [← Option.some.inj hr]; exact noc3TypeS3_eq
        rcases @decoder_answers cfg _ hv with ho | ho
        · have hn := hval.1.1.2
          simp [noc3ReqValS3, S3.ctl, ho] at hn
        · exact if_pos (ht.trans ho)

theorem answerS3_of_leave (h16 : cfg.organisation = .serial16) {m : Noc2Msg} (n : Nat) (hv : s.s2.val = true)
    (hc : Carries cfg s.s2 m) (h3 : s.stallS3 cfg i = false) :
    (s.step cfg i).answerS3 cfg = Pass.ack cfg ⟨m, s.s2.d.fetchState, s.tagcheckStateS2 cfg, n⟩ := by
  have hser := parallelSrams_serial16 h16
  have hs3 : (s.step cfg i).s3 = s.s3Latch cfg := s3Next_of_move h3
  have hst : (s.step cfg i).noc3Staled = false := noc3Staled_of_move h3
  have hop : (s.step cfg i).s3.ctl cfg = decoder cfg s.s2.d := by rw [hs3]; rfl
  have hwb : (s.step cfg i).s3.noc3Wb = false := by
    rw [hs3]
    change s.noc3WbS2 cfg = false
    rw [noc3WbS2, S2.ctl, (decoder_pass hc.isPass).1]
  have hvv : (s.step cfg i).s3.val = true := by rw [hs3]; exact hv
  have hfound : (s.step cfg i).s3.tagcheckState = s.tagcheckStateS2 cfg := by rw [hs3]; rfl
  have haddr : (s.step cfg i).s3.address = m.passAddress s.s2.d.fetchState := by rw [hs3, ← hc.address]; rfl
  have hvec : (s.step cfg i).s3.fwdSubcachelineVector = m.fwdSubcachelineVector := by rw [hs3, ← hc.vector]; rfl
  simp only [answerS3, noc3encoderReq, noc3encoderReqVal, noc3ReqValS3, noc3WithDataS3, noc3AddressS3, noc3TypeS3_eq,
    hop, noc3Op_pass hser hc.reqtype, hvv, hst, hwb, hfound, haddr, hvec, hser, hc.last]
  rw [Pass.ack, Pass.address, Noc2Msg.ackType]
  cases m.isLastInval cfg s.s2.d.fetchState <;> cases m.icacheType <;> cases s.tagcheckStateS2 cfg <;>
    cases m.reqtype <;> rfl

end State

namespace Answered

variable {cfg : Config} {t : Answered} {i : Input}

def keys (cfg : Config) (m : Noc2Msg) : List (Noc2Msg × FetchState) := (m.passes cfg).map (m, ·)

/-- The passes of the last forward S1 has begun, the block's and those to come. -/
def current (t : Answered) : List (Noc2Msg × FetchState) :=
  (if t.l15.passInS2 ∧ t.l15.s2.d.fetchState = .normal then [] else t.block.map Pass.key) ++ t.passesS2 ++ t.l15.passesS1

/-- The passes are taken in the order of the messages, each with its own. -/
structure Ordered (cfg : Config) (t : Answered) : Prop where
  carries : t.l15.passInS2 = true → State.Carries cfg t.l15.s2 t.msgS2
  passes : t.passes.map Pass.key ++ t.passesS2 ++ t.l15.passesS1 = t.begun.flatMap (keys cfg)
  current : t.current = [] ∨ ∃ m ∈ t.begun, t.current = keys cfg m
  alone : t.l15.passesS1 ≠ [] → t.l15.s2.val = true → t.l15.passInS2 = true
  /-- No pass is in S2 or in the block when the tag of a fill is written. -/
  fill : t.l15.fetchState = .noc2WritebackDone →
    t.l15.noc2.forward = false ∧ if t.l15.s2.val then t.l15.passInS2 = false else t.block = []

/-! ## Passes -/

@[simp] theorem step_l15 : (t.step cfg i).l15 = t.l15.step cfg i := rfl

theorem passS2_key : (t.passS2 cfg).toList.map Pass.key = t.passesS2 := by
  simp only [passS2, passesS2]
  split <;> rfl

theorem passesS1_of_source (h : (t.l15.preS1 cfg).source ≠ .noc2) : t.l15.passesS1 = [] := by
  rw [State.preS1_source] at h
  revert h
  rw [State.passesS1]
  cases t.l15.fetchState <;> simp [Predecode.source?, FetchState.passes]

/-- S1 takes the next pass of the message under way, or the first of the next message. -/
theorem pass_accept (h : State.Awaited cfg t.l15)
    (hfill : t.l15.fetchState = .noc2WritebackDone → t.l15.noc2.forward = false)
    (hkeep : (t.l15.fetchStateNext cfg i).passes ≠ [] → (t.l15.step cfg i).noc2 = t.l15.noc2)
    (ha : t.l15.acceptS1 cfg i = true) :
    (if (t.l15.preS1 cfg).reqtype.isPass then [(t.l15.noc2, t.l15.fetchState)] else []) ++ (t.l15.step cfg i).passesS1 =
      (if t.l15.noc2HeaderAck cfg i then keys cfg t.l15.noc2 else t.l15.passesS1) := by
  have hnext := State.fetchStateNext_of_acceptS1 ha
  have hS1 : (t.l15.step cfg i).passesS1 =
      (FetchState.next cfg (t.l15.decoderInS1 cfg)).passes.map (t.l15.noc2, ·) := by
    rw [State.passesS1, State.step_fetchState, ← hnext]
    by_cases hp : (t.l15.fetchStateNext cfg i).passes = []
    · rw [hp]; rfl
    · rw [hkeep hp]
  rw [hS1]
  by_cases hs : (t.l15.preS1 cfg).source = .noc2
  · rw [State.isPass_preS1 hs]
    by_cases hn : t.l15.fetchState = .normal
    · rw [if_pos (show t.l15.noc2HeaderAck cfg i = true by simp [State.noc2HeaderAck, hs, ha, hn])]
      cases hf : t.l15.noc2.forward with
      | true =>
          have hr : (t.l15.decoderInS1 cfg).reqtype = t.l15.noc2.passReqtype := by
            rw [State.decoderInS1_reqtype, (State.preS1_noc2 hs).1, (ofNoc2_forward hf).1]
          have hp := @next_passes_forward cfg (t.l15.decoderInS1 cfg) t.l15.noc2 hn hf hr
          rw [keys, ← hp, hn]
          rfl
      | false =>
          have hr : (t.l15.decoderInS1 cfg).reqtype.isPass = false := by
            rw [State.decoderInS1_reqtype, State.isPass_preS1 hs, hf]
          rw [next_passes_other hn hr, keys, Noc2Msg.passes, Noc2Msg.dataForward, Noc2Msg.icacheForward, hf]
          rfl
    · rw [if_neg (show ¬ t.l15.noc2HeaderAck cfg i = true by simp [State.noc2HeaderAck, hn]), next_passes hn,
        State.decoderInS1_fetchState, State.passesS1]
      have hf : t.l15.noc2.forward = true → t.l15.fetchState ≠ .noc2WritebackDone := by
        intro hf hw
        rw [hfill hw] at hf
        cases hf
      have hd := h.forward
      have hi := h.icache
      rw [State.preS1_source] at hs
      simp only [Noc2Msg.dataForward, Noc2Msg.icacheForward, Bool.and_eq_true] at hd hi
      revert hn hf hd hi hs
      cases t.l15.fetchState <;> cases t.l15.noc2.forward <;> simp [FetchState.passes, Predecode.source?]
  · have hp : (t.l15.preS1 cfg).reqtype.isPass = false := by
      by_contra hp
      exact hs (State.source_of_isPass (by simpa using hp))
    rw [passesS1_of_source hs, hp, if_neg (show ¬ t.l15.noc2HeaderAck cfg i = true by simp [State.noc2HeaderAck, hs])]
    by_cases hn : t.l15.fetchState = .normal
    · rw [next_passes_other hn (by rwa [State.decoderInS1_reqtype])]
      rfl
    · have hz := passesS1_of_source hs
      rw [State.passesS1, List.map_eq_nil_iff] at hz
      rw [next_passes hn, State.decoderInS1_fetchState, hz]
      rfl

theorem s2_of_stall (h : t.l15.stallS2 cfg i = true) :
    ∃ k, (t.l15.step cfg i).s2 = { t.l15.s2 with cacheSubline := k } := by
  rcases State.s2_cases cfg t.l15 i with ⟨_, _, he⟩ | ⟨_, _, _, he⟩ | ⟨h2, _⟩
  · exact ⟨_, he⟩
  · exact ⟨_, he⟩
  · rw [h] at h2
    cases h2

theorem passesS2_of_stall (h : t.l15.stallS2 cfg i = true) :
    (t.l15.step cfg i).passInS2 = t.l15.passInS2 ∧ (t.step cfg i).passesS2 = t.passesS2 ∧
      (t.l15.step cfg i).s2.d = t.l15.s2.d := by
  obtain ⟨k, he⟩ := @s2_of_stall cfg t i h
  have hm : (t.step cfg i).msgS2 = t.msgS2 := by simp [step, State.acceptS1_of_stallS2 h]
  have hp : (t.l15.step cfg i).passInS2 = t.l15.passInS2 := by rw [State.passInS2, he]; rfl
  refine ⟨hp, ?_, by rw [he]⟩
  rw [passesS2, passesS2, step_l15, hp, hm, he]

theorem passesS2_of_move (h : t.l15.stallS2 cfg i = false) :
    (t.l15.step cfg i).passInS2 = (t.l15.acceptS1 cfg i && (t.l15.preS1 cfg).reqtype.isPass) ∧
      (t.step cfg i).passesS2 =
        if t.l15.acceptS1 cfg i && (t.l15.preS1 cfg).reqtype.isPass then [(t.l15.noc2, t.l15.fetchState)] else [] := by
  have he : (t.l15.step cfg i).s2 = t.l15.s2Latch cfg i := State.s2Next_of_move h
  have hp : (t.l15.step cfg i).passInS2 = (t.l15.acceptS1 cfg i && (t.l15.preS1 cfg).reqtype.isPass) := by
    rw [State.passInS2, he]
    rfl
  refine ⟨hp, ?_⟩
  rw [passesS2, step_l15, hp]
  cases ha : t.l15.acceptS1 cfg i with
  | false => rfl
  | true =>
      rw [he]
      simp only [step, ha, if_true]
      rfl

theorem keep_of_passes (h : State.Awaited cfg t.l15) (hb : State.Beats cfg t.l15) (hsg : State.Single cfg t.l15 i)
    (hp : (t.l15.fetchStateNext cfg i).passes ≠ []) : (t.l15.step cfg i).noc2 = t.l15.noc2 := by
  by_cases hi : t.l15.fetchStateNext cfg i = .icacheInval2
  · exact State.Awaited.keep_icache hsg hi
  · refine (h.holds_step hb hsg ?_).2.2
    revert hp hi
    cases t.l15.fetchStateNext cfg i <;> simp [FetchState.passes, FetchState.holdsNoc2]

theorem isPass_of_passes (h : State.Awaited cfg t.l15) (hp : t.l15.passesS1 ≠ []) :
    (t.l15.preS1 cfg).reqtype.isPass = true := by
  have hs : (t.l15.preS1 cfg).source = .noc2 := by
    by_contra hs
    exact hp (passesS1_of_source hs)
  rw [State.isPass_preS1 hs]
  have hd := h.forward
  have hi := h.icache
  simp only [Noc2Msg.dataForward, Noc2Msg.icacheForward, Bool.and_eq_true] at hd hi
  revert hp hd hi
  rw [State.passesS1]
  cases t.l15.fetchState <;> simp [FetchState.passes] <;> intro h _ <;> exact h

theorem isPass_of_next (h : State.Awaited cfg t.l15) (hp : (FetchState.next cfg (t.l15.decoderInS1 cfg)).passes ≠ []) :
    (t.l15.preS1 cfg).reqtype.isPass = true := by
  by_cases hn : t.l15.fetchState = .normal
  · by_contra hr
    exact hp (next_passes_other hn (by rw [State.decoderInS1_reqtype]; simpa using hr))
  · rw [next_passes hn] at hp
    apply isPass_of_passes h
    rw [State.passesS1]
    intro hz
    rw [List.map_eq_nil_iff] at hz
    rw [State.decoderInS1_fetchState, hz] at hp
    exact hp rfl

namespace Ordered

variable (h : Ordered cfg t) (hA : State.Awaited cfg t.l15) (hb : State.Beats cfg t.l15) (hsg : State.Single cfg t.l15 i)

theorem passesS1_of_stay (ha : t.l15.acceptS1 cfg i = false) (hkeep : (t.l15.fetchStateNext cfg i).passes ≠ [] →
    (t.l15.step cfg i).noc2 = t.l15.noc2) : (t.l15.step cfg i).passesS1 = t.l15.passesS1 := by
  rw [State.fetchStateNext_of_not_acceptS1 ha] at hkeep
  rw [State.passesS1, State.passesS1, State.step_fetchState, State.fetchStateNext_of_not_acceptS1 ha]
  by_cases hp : t.l15.fetchState.passes = []
  · rw [hp]; rfl
  · rw [hkeep hp]

theorem headerAck_of_stay (ha : t.l15.acceptS1 cfg i = false) : t.l15.noc2HeaderAck cfg i = false := by
  simp [State.noc2HeaderAck, ha]

theorem passesS1_of_headerAck (hh : t.l15.noc2HeaderAck cfg i = true) : t.l15.passesS1 = [] := by
  simp only [State.noc2HeaderAck, Bool.and_eq_true, beq_iff_eq] at hh
  rw [State.passesS1, hh.2]
  rfl

include h in
theorem carries_step (hp : (t.l15.step cfg i).passInS2 = true) :
    State.Carries cfg (t.l15.step cfg i).s2 (t.step cfg i).msgS2 := by
  cases h2 : t.l15.stallS2 cfg i with
  | true =>
      obtain ⟨k, he⟩ := s2_of_stall h2
      have hm : (t.step cfg i).msgS2 = t.msgS2 := by simp [Answered.step, State.acceptS1_of_stallS2 h2]
      rw [(passesS2_of_stall h2).1] at hp
      have hc := h.carries hp
      rw [he, hm]
      exact ⟨hc.forward, hc.reqtype, hc.address, hc.vector, hc.last⟩
  | false =>
      rw [(passesS2_of_move h2).1, Bool.and_eq_true] at hp
      have hm : (t.step cfg i).msgS2 = t.l15.noc2 := by simp [Answered.step, hp.1]
      rw [hm, State.step_s2, State.s2Next_of_move h2]
      exact State.carries_s2Latch hp.2

include h hA hb hsg

theorem taken_step (h2 : t.l15.stallS2 cfg i = false) :
    (t.step cfg i).passesS2 ++ (t.l15.step cfg i).passesS1 =
      if t.l15.noc2HeaderAck cfg i then keys cfg t.l15.noc2 else t.l15.passesS1 := by
  have hkeep := @keep_of_passes cfg t i hA hb hsg
  rw [(passesS2_of_move h2).2]
  cases ha : t.l15.acceptS1 cfg i with
  | false => rw [headerAck_of_stay ha, passesS1_of_stay ha hkeep]; rfl
  | true => exact pass_accept hA (fun hw => (h.fill hw).1) hkeep ha

theorem passes_step :
    (t.step cfg i).passes.map Pass.key ++ (t.step cfg i).passesS2 ++ (t.step cfg i).l15.passesS1 =
      (t.step cfg i).begun.flatMap (keys cfg) := by
  cases h2 : t.l15.stallS2 cfg i with
  | true =>
      have ha := State.acceptS1_of_stallS2 h2
      rw [(passesS2_of_stall h2).2.1, step_l15, passesS1_of_stay ha (keep_of_passes hA hb hsg)]
      simp only [Answered.step, h2, headerAck_of_stay ha, if_true, Bool.false_eq_true, if_false, List.append_nil]
      exact h.passes
  | false =>
      have hp : (t.step cfg i).passes.map Pass.key = t.passes.map Pass.key ++ t.passesS2 := by
        simp only [Answered.step, h2, Bool.false_eq_true, if_false, List.map_append, passS2_key]
      rw [hp, List.append_assoc, step_l15, h.taken_step hA hb hsg h2]
      cases hh : t.l15.noc2HeaderAck cfg i with
      | false =>
          simp only [Answered.step, hh, Bool.false_eq_true, if_false, List.append_nil]
          exact h.passes
      | true =>
          have hz := h.passes
          rw [passesS1_of_headerAck hh, List.append_nil] at hz
          simp only [Answered.step, hh, if_true, List.flatMap_append, List.flatMap_singleton, hz]

theorem alone_step (hp : (t.l15.step cfg i).passesS1 ≠ []) (hv : (t.l15.step cfg i).s2.val = true) :
    (t.l15.step cfg i).passInS2 = true := by
  cases ha : t.l15.acceptS1 cfg i with
  | true =>
      rw [(passesS2_of_move (State.stallS2_of_acceptS1 ha)).1, ha, Bool.true_and]
      apply isPass_of_next hA
      rw [← State.fetchStateNext_of_acceptS1 ha]
      intro hz
      rw [State.passesS1, State.step_fetchState, hz] at hp
      exact hp rfl
  | false =>
      rw [passesS1_of_stay ha (keep_of_passes hA hb hsg)] at hp
      cases h2 : t.l15.stallS2 cfg i with
      | true =>
          obtain ⟨k, he⟩ := s2_of_stall h2
          rw [he] at hv
          rw [(passesS2_of_stall h2).1]
          exact h.alone hp hv
      | false =>
          rw [State.step_s2, State.s2Next_of_move h2] at hv
          rw [show (t.l15.s2Latch cfg i).val = t.l15.acceptS1 cfg i from rfl, ha] at hv
          cases hv

theorem fill_step (hf : (t.l15.step cfg i).fetchState = .noc2WritebackDone) :
    (t.l15.step cfg i).noc2.forward = false ∧
      if (t.l15.step cfg i).s2.val then (t.l15.step cfg i).passInS2 = false else (t.step cfg i).block = [] := by
  rw [State.step_fetchState] at hf
  rw [(hA.holds_step hb hsg (by rw [hf]; rfl)).2.2]
  cases ha : t.l15.acceptS1 cfg i with
  | true =>
      rw [State.fetchStateNext_of_acceptS1 ha] at hf
      have hr := (next_noc2WritebackDone cfg _ hf).2
      rw [State.decoderInS1_reqtype] at hr
      have hs := State.Awaited.source_of_isFill hr
      have hnp : t.l15.noc2.forward = false := by
        rw [(State.preS1_noc2 hs).1] at hr
        exact ofNoc2_isFill hr
      have h2 := State.stallS2_of_acceptS1 ha
      have hv : (t.l15.step cfg i).s2.val = true := by
        rw [State.step_s2, State.s2Next_of_move h2]
        exact ha
      refine ⟨hnp, ?_⟩
      rw [if_pos hv, (passesS2_of_move h2).1, State.isPass_preS1 hs, hnp, Bool.and_false]
  | false =>
      rw [State.fetchStateNext_of_not_acceptS1 ha] at hf
      obtain ⟨hn, hblock⟩ := h.fill hf
      refine ⟨hn, ?_⟩
      cases h2 : t.l15.stallS2 cfg i with
      | true =>
          obtain ⟨k, he⟩ := s2_of_stall h2
          rw [(passesS2_of_stall h2).1, he]
          simpa [Answered.step, h2] using hblock
      | false =>
          have hv : (t.l15.step cfg i).s2.val = false := by
            rw [State.step_s2, State.s2Next_of_move h2]
            exact ha
          rw [if_neg (by rw [hv]; simp)]
          simp only [Answered.step, h2]
          cases h2v : t.l15.s2.val with
          | true =>
              rw [h2v, if_pos rfl] at hblock
              simp [passS2, hblock, blockNext]
          | false => simpa [h2v] using hblock

omit h hA hb hsg in
theorem block_of_move (h2 : t.l15.stallS2 cfg i = false) :
    (t.step cfg i).block.map Pass.key =
      if t.l15.s2.val && !t.l15.passInS2 then []
      else (if t.l15.passInS2 ∧ t.l15.s2.d.fetchState = .normal then [] else t.block.map Pass.key) ++ t.passesS2 := by
  have hblock : (t.step cfg i).block = if t.l15.s2.val then blockNext t.block (t.passS2 cfg) else t.block := by
    simp [Answered.step, h2]
  by_cases hp : t.l15.passInS2 = true
  · have hv : t.l15.s2.val = true := by
      rw [State.passInS2, Bool.and_eq_true] at hp
      exact hp.1
    by_cases hn : t.l15.s2.d.fetchState = .normal
    · simp [hblock, hv, hp, hn, passS2, passesS2, blockNext, Pass.key]
    · simp [hblock, hv, hp, hn, passS2, passesS2, blockNext, Pass.key]
  · cases hv : t.l15.s2.val <;> simp [hblock, hv, hp, passS2, passesS2, blockNext]

theorem current_step : (t.step cfg i).current = [] ∨ ∃ m ∈ (t.step cfg i).begun, (t.step cfg i).current = keys cfg m := by
  have hkeep := @keep_of_passes cfg t i hA hb hsg
  have hmono : ∀ {c}, (c = [] ∨ ∃ m ∈ t.begun, c = keys cfg m) → c = [] ∨ ∃ m ∈ (t.step cfg i).begun, c = keys cfg m :=
    fun hc => hc.imp_right fun ⟨m, hm, he⟩ => ⟨m, List.mem_append_left _ hm, he⟩
  cases h2 : t.l15.stallS2 cfg i with
  | true =>
      have ha := State.acceptS1_of_stallS2 h2
      obtain ⟨hp, hps, hd⟩ := passesS2_of_stall h2
      have hblock : (t.step cfg i).block = t.block := by simp [Answered.step, h2]
      have hc : (t.step cfg i).current = t.current := by
        rw [Answered.current, Answered.current, step_l15, hp, hps, hd, hblock, passesS1_of_stay ha hkeep]
      rw [hc]
      exact hmono h.current
  | false =>
      -- the passes of the block with the one that leaves S2, and those to come
      have hC : (t.step cfg i).block.map Pass.key ++ t.l15.passesS1 = [] ∨
          ∃ m ∈ t.begun, (t.step cfg i).block.map Pass.key ++ t.l15.passesS1 = keys cfg m := by
        rw [block_of_move h2]
        split
        case isTrue hv =>
          simp only [Bool.and_eq_true, Bool.not_eq_true'] at hv
          left
          by_contra hne
          have := h.alone (by simpa using hne) hv.1
          rw [hv.2] at this
          cases this
        case isFalse => exact h.current
      have htake := h.taken_step hA hb hsg h2
      obtain ⟨hp, hps⟩ := passesS2_of_move h2
      rw [Answered.current, step_l15, List.append_assoc, htake]
      by_cases hh : t.l15.noc2HeaderAck cfg i = true
      · have hz := passesS1_of_headerAck hh
        simp only [State.noc2HeaderAck, Bool.and_eq_true, beq_iff_eq] at hh
        obtain ⟨⟨hs, ha⟩, hn⟩ := hh
        have hm : t.l15.noc2 ∈ (t.step cfg i).begun := by simp [Answered.step, State.noc2HeaderAck, hs, ha, hn]
        have hd : (t.l15.step cfg i).s2.d.fetchState = .normal := by
          rw [State.step_s2, State.s2Next_of_move h2]
          exact hn
        rw [if_pos (show t.l15.noc2HeaderAck cfg i = true by simp [State.noc2HeaderAck, hs, ha, hn]), hp, ha,
          Bool.true_and, State.isPass_preS1 hs, hd]
        cases hf : t.l15.noc2.forward with
        | true => exact .inr ⟨_, hm, by simp⟩
        | false =>
            have hk : keys cfg t.l15.noc2 = [] := by
              simp [keys, Noc2Msg.passes, Noc2Msg.dataForward, Noc2Msg.icacheForward, hf]
            rw [hz, List.append_nil] at hC
            simpa [hk] using hmono hC
      · rw [if_neg hh]
        have hd : ¬ ((t.l15.step cfg i).passInS2 = true ∧ (t.l15.step cfg i).s2.d.fetchState = .normal) := by
          rintro ⟨hpass, hn⟩
          rw [hp, Bool.and_eq_true] at hpass
          rw [State.step_s2, State.s2Next_of_move h2] at hn
          apply hh
          simp only [State.noc2HeaderAck, Bool.and_eq_true, beq_iff_eq]
          exact ⟨⟨State.source_of_isPass hpass.2, hpass.1⟩, hn⟩
        rw [if_neg hd]
        exact hmono hC

theorem step : Ordered cfg (t.step cfg i) where
  carries := h.carries_step
  passes := h.passes_step hA hb hsg
  current := h.current_step hA hb hsg
  alone := h.alone_step hA hb hsg
  fill := h.fill_step hA hb hsg

end Ordered

/-! ## Answers -/

theorem acks_step (h16 : cfg.organisation = .serial16) (ho : Ordered cfg t) (hb : State.Beats cfg t.l15)
    (h : t.acks ++ (t.l15.answerS3 cfg).toList = t.passes.filterMap (Pass.ack cfg)) :
    (t.step cfg i).acks ++ ((t.l15.step cfg i).answerS3 cfg).toList = (t.step cfg i).passes.filterMap (Pass.ack cfg) := by
  have hstall := @State.stallS2_serial16 cfg t.l15 i h16 hb
  let out : List FwdAck := if t.l15.stallS2 cfg i then [] else (t.passS2 cfg).toList.filterMap (Pass.ack cfg)
  have hstep : (t.l15.answerS3 cfg).toList ++ out =
      (if i.noc3Ack then t.l15.answerS3 cfg else none).toList ++ ((t.l15.step cfg i).answerS3 cfg).toList := by
    apply State.noc3_step FwdAck.ofReq
    · intro h3
      have hs3 : (t.l15.step cfg i).s3 = t.l15.s3Latch cfg := State.s3Next_of_move h3
      have h2 : t.l15.stallS2 cfg i = false := by rw [hstall, State.stallRealS2, h3, Bool.and_false]
      change ((t.l15.step cfg i).answerS3 cfg).toList = out
      simp only [out, h2, Bool.false_eq_true, if_false]
      cases hp : t.l15.passInS2 with
      | false =>
          rw [State.answerS3_of_other (by rw [hs3]; exact hp), passS2, hp]
          rfl
      | true =>
          have hv : t.l15.s2.val = true := by
            rw [State.passInS2, Bool.and_eq_true] at hp
            exact hp.1
          rw [passS2, hp, State.answerS3_of_leave h16 (t.l15.copies cfg t.l15.s2.address) hv (ho.carries hp) h3]
          simp only [if_true, Option.toList_some, List.filterMap_cons, List.filterMap_nil]
          cases Pass.ack cfg _ <;> rfl
    · intro h3
      refine ⟨?_, State.answerS3_of_stall h3⟩
      by_cases hv : t.l15.s2.val = true
      · simp [out, hstall, State.stallRealS2, h3, hv]
      · simp [out, hstall, State.stallRealS2, h3, hv, passS2, State.passInS2]
  have hpass : (t.step cfg i).passes.filterMap (Pass.ack cfg) = t.passes.filterMap (Pass.ack cfg) ++ out := by
    simp only [step, List.filterMap_append, out]
    split <;> simp_all
  rw [hpass, ← h, List.append_assoc, hstep, step, List.append_assoc]

/-! ## Messages -/

/-- Every message that S1 has begun is acknowledged or waits, and a message under which S1 has taken
no pass is new. -/
structure Consumes (t : Answered) : Prop where
  fresh : t.l15.noc2State ≠ .waitingAck → t.l15.noc2New = true
  second : t.l15.fetchState = .icacheInval2 → t.l15.noc2State = .waitingAck → t.l15.noc2New = false
  consumed : t.begun = t.consumed ++ t.waiting

theorem noc2Val_of_headerAck (h : t.l15.noc2HeaderAck cfg i = true) :
    t.l15.noc2State = .waitingAck ∧ t.l15.noc2New = true := by
  simp only [State.noc2HeaderAck, Bool.and_eq_true, beq_iff_eq] at h
  obtain ⟨⟨hs, -⟩, hn⟩ := h
  rw [State.preS1_source, hn] at hs
  have hv : t.l15.noc2Val = true := by
    by_contra hv
    rw [Bool.not_eq_true] at hv
    rw [hv] at hs
    cases hp : t.l15.pcxVal <;> simp [hp, Predecode.source?] at hs
  simpa [State.noc2Val] using hv

namespace Consumes

variable (h : Consumes t)
include h

/-- A message acknowledged while it is new is acknowledged with its first pass. -/
theorem headerAck_of_ack (hA : State.Awaited cfg t.l15) (hb : State.Beats cfg t.l15)
    (hsg : State.Single cfg t.l15 i) (hw : t.l15.noc2State = .waitingAck) (hn : t.l15.noc2New = true)
    (ha : t.l15.noc2Ack cfg i = true) : t.l15.noc2HeaderAck cfg i = true := by
  have hold : (t.l15.fetchState.holdsNoc2 || t.l15.owesNoc2S2 cfg || t.l15.owesNoc2S3 cfg) = false := by
    by_contra ho
    have := (hA.held (by rwa [Bool.not_eq_false] at ho)).2
    rw [hn] at this
    cases this
  simp only [Bool.or_eq_false_iff] at hold
  rcases State.Awaited.noc2Ack_cases hb hsg hw ha with ⟨hacc, hst⟩ | ⟨ho, -⟩ | ⟨ho, -⟩
  · have hs := State.noc2_of_ackStage (by rw [hst]; simp)
    rcases State.source?_noc2 (State.preS1_source.symm.trans hs) with ⟨hf, -⟩ | hh | hi
    · simp [State.noc2HeaderAck, hs, hacc, hf]
    · rw [hold.1.1] at hh
      cases hh
    · rw [h.second hi hw] at hn
      cases hn
  · rw [hold.1.2] at ho
    cases ho
  · rw [hold.2] at ho
    cases ho

theorem fresh_step (hs : (t.l15.step cfg i).noc2State ≠ .waitingAck) : (t.l15.step cfg i).noc2New = true := by
  change State.isNewNext (t.l15.noc2Ack cfg i) (t.l15.noc2HeaderAck cfg i) t.l15.noc2New = true
  cases hack : t.l15.noc2Ack cfg i with
  | true => rfl
  | false =>
      have hw : t.l15.noc2State ≠ .waitingAck := by
        intro hw
        apply hs
        simp [State.step, State.noc2Next, hw, hack]
      have hh : t.l15.noc2HeaderAck cfg i = false := by
        by_contra hh
        exact hw (noc2Val_of_headerAck (by simpa using hh)).1
      simp [State.isNewNext, hh, h.fresh hw]

theorem second_step (hsg : State.Single cfg t.l15 i) (hf : (t.l15.step cfg i).fetchState = .icacheInval2)
    (hs : (t.l15.step cfg i).noc2State = .waitingAck) : (t.l15.step cfg i).noc2New = false := by
  rw [State.step_fetchState] at hf
  change (t.l15.noc2Next cfg i).2 = .waitingAck at hs
  change State.isNewNext (t.l15.noc2Ack cfg i) (t.l15.noc2HeaderAck cfg i) t.l15.noc2New = false
  cases ha : t.l15.acceptS1 cfg i with
  | true =>
      rw [State.fetchStateNext_of_acceptS1 ha] at hf
      obtain ⟨hn, hr⟩ := next_icacheInval2 cfg _ hf
      rw [State.decoderInS1_reqtype] at hr
      have hsrc := State.Awaited.source_of_fromNoc2 (by rw [hr]; rfl) (by rw [hr]; simp)
      have hh : t.l15.noc2HeaderAck cfg i = true := by
        simp [State.noc2HeaderAck, hsrc, ha, show t.l15.fetchState = .normal from hn]
      have hack : t.l15.noc2Ack cfg i = false := by
        by_contra hack
        simp [State.noc2Next, (noc2Val_of_headerAck hh).1, hack] at hs
      rw [hack, hh]
      rfl
  | false =>
      rw [State.fetchStateNext_of_not_acceptS1 ha] at hf
      have hh := Ordered.headerAck_of_stay ha
      cases hst : t.l15.noc2State with
      | waitingAck =>
          have hack : t.l15.noc2Ack cfg i = false := by
            by_contra hack
            simp [State.noc2Next, hst, hack] at hs
          rw [hack, hh]
          exact h.second hf hst
      | idle =>
          rcases hsg.icache hf hst with hacc | hnone
          · rw [ha] at hacc
            cases hacc
          · simp [State.noc2Next, hst, hnone] at hs
      | waitingAckRst =>
          simp only [State.noc2Next, hst] at hs
          split at hs <;> cases hs

theorem consumed_step (hA : State.Awaited cfg t.l15) (hb : State.Beats cfg t.l15)
    (hsg : State.Single cfg t.l15 i) : (t.step cfg i).begun = (t.step cfg i).consumed ++ (t.step cfg i).waiting := by
  have hc := h.consumed
  by_cases hw : t.l15.noc2State = .waitingAck
  · cases hack : t.l15.noc2Ack cfg i with
    | true =>
        have hw' : (t.l15.step cfg i).noc2State = .waitingAckRst := by simp [State.step, State.noc2Next, hw, hack]
        rw [waiting, step_l15, hw']
        cases hn : t.l15.noc2New with
        | true =>
            have hh := h.headerAck_of_ack hA hb hsg hw hn hack
            rw [waiting, hn] at hc
            simpa [Answered.step, hh, hw, hack] using hc
        | false =>
            have hh : t.l15.noc2HeaderAck cfg i = false := by
              by_contra hh
              rw [(noc2Val_of_headerAck (by simpa using hh)).2] at hn
              cases hn
            rw [waiting, if_pos ⟨hw, hn⟩] at hc
            simpa [Answered.step, hh, hw, hack] using hc
    | false =>
        have hw' : (t.l15.step cfg i).noc2State = .waitingAck := by simp [State.step, State.noc2Next, hw, hack]
        have hm : (t.l15.step cfg i).noc2 = t.l15.noc2 := by simp [State.step, State.noc2Next, hw]
        have hnew : (t.l15.step cfg i).noc2New = if t.l15.noc2HeaderAck cfg i then false else t.l15.noc2New := by
          change State.isNewNext (t.l15.noc2Ack cfg i) _ _ = _
          rw [hack]
          rfl
        rw [waiting, step_l15, hw', hm, hnew]
        cases hh : t.l15.noc2HeaderAck cfg i with
        | true =>
            rw [waiting, (noc2Val_of_headerAck hh).2] at hc
            simpa [Answered.step, hh, hack] using hc
        | false => simpa [Answered.step, hh, hack, waiting, hw] using hc
  · have hh : t.l15.noc2HeaderAck cfg i = false := by
      by_contra hh
      exact hw (noc2Val_of_headerAck (by simpa using hh)).1
    have hnew : (t.l15.step cfg i).noc2New = true := by
      change State.isNewNext (t.l15.noc2Ack cfg i) _ _ = _
      rw [hh, h.fresh hw]
      cases t.l15.noc2Ack cfg i <;> rfl
    rw [waiting, step_l15, hnew]
    rw [waiting, if_neg (fun hv => hw hv.1)] at hc
    simpa [Answered.step, hh, hw] using hc

theorem step (hA : State.Awaited cfg t.l15) (hb : State.Beats cfg t.l15) (hsg : State.Single cfg t.l15 i) :
    Consumes (t.step cfg i) where
  fresh := h.fresh_step
  second := h.second_step hsg
  consumed := h.consumed_step hA hb hsg

end Consumes

/-! ## Lines -/

structure Clears (cfg : Config) (t : Answered) : Prop where
  notLastInv : t.l15.s2.notLastInv = false
  suffix : t.block <:+ t.passes
  cleared : ∀ p ∈ t.block, p.msg.icacheType = false → p.copies ≤ 1 → p.Cleared cfg t.l15

theorem copies_unique {s : State} {address v w : Nat} (h : s.copies cfg address ≤ 1) (hv : v < cfg.ways) (hw : w < cfg.ways)
    (tv : s.arrays.dtag (cfg.cacheIndex address) v = cfg.cacheTag address)
    (tw : s.arrays.dtag (cfg.cacheIndex address) w = cfg.cacheTag address)
    (sv : s.arrays.mesi.rows (cfg.cacheIndex address) v ≠ .i) (sw : s.arrays.mesi.rows (cfg.cacheIndex address) w ≠ .i) :
    v = w := by
  by_contra hne
  rw [State.copies, List.countP_eq_length_filter] at h
  have hsub : [v, w].Subperm <| (List.range cfg.ways).filter fun way =>
      cfg.cacheTag address == s.arrays.dtag (cfg.cacheIndex address) way &&
        s.arrays.mesi.rows (cfg.cacheIndex address) way != .i := by
    apply List.subperm_of_subset (by simpa using hne)
    intro way hway
    rcases List.mem_cons.mp hway with rfl | hway
    · simp [hv, tv, sv]
    · rw [List.mem_singleton] at hway
      subst hway
      simp [hw, tw, sw]
  have := hsub.length_le
  simp only [List.length_cons, List.length_nil] at this
  omega

theorem dtag_step (ho : Ordered cfg t) (hA : State.Awaited cfg t.l15) (hk : t.l15.passInS2 = true ∨ t.l15.s2.val = false ∧ t.block ≠ []) :
    (t.l15.step cfg i).arrays.dtag = t.l15.arrays.dtag := by
  change t.l15.dtagNext cfg i = _
  rw [State.dtagNext]
  split
  case isFalse => rfl
  case isTrue hw =>
    exfalso
    rw [Bool.and_eq_true, beq_iff_eq] at hw
    obtain ⟨hr, hn⟩ := decoder_writesTag hw.2
    rw [State.decoderInS1_reqtype] at hr
    have hs := State.Awaited.source_of_isFill hr
    have hnf : t.l15.noc2.forward = false := by
      rw [(State.preS1_noc2 hs).1] at hr
      exact ofNoc2_isFill hr
    have hf : t.l15.fetchState = .noc2WritebackDone := by
      have hd := hA.forward
      have hi := hA.icache
      rw [State.preS1_source] at hs
      rw [State.decoderInS1_fetchState] at hn
      simp only [Noc2Msg.dataForward, Noc2Msg.icacheForward, hnf, Bool.false_and, Bool.false_eq_true] at hd hi
      revert hn hd hi hs
      cases t.l15.fetchState <;> simp [Predecode.source?]
    have hfill := (ho.fill hf).2
    rcases hk with hk | ⟨hv, hb⟩
    · have hv : t.l15.s2.val = true := by
        rw [State.passInS2, Bool.and_eq_true] at hk
        exact hk.1
      rw [hv, if_pos rfl, hk] at hfill
      cases hfill
    · rw [hv] at hfill
      exact hb hfill

theorem mesi_rows_of_move {s : State} (hv : s.s2.val = true) (h2 : s.stallS2 cfg i = false) (hn : s.s2.notLastInv = false) :
    (s.step cfg i).arrays.mesi.rows = (s.mesiWriteS2 cfg).elim s.arrays.mesi.rows fun w =>
      Function.update s.arrays.mesi.rows (s.cacheIndexS2 cfg)
        (Function.update (s.arrays.mesi.rows (s.cacheIndexS2 cfg)) w.1 w.2) := by
  have hw : s.mesiWrite cfg i = (s.mesiWriteS2 cfg).map fun w =>
      (s.cacheIndexS2 cfg, Function.update (s.arrays.mesi.rows (s.cacheIndexS2 cfg)) w.1 w.2) := by
    simp [State.mesiWrite, hv, h2, hn]
  simp only [State.step_arrays, State.arraysNext, hw]
  cases s.mesiWriteS2 cfg <;> rfl

theorem mesiWriteS2_pass {s : State} {m : Noc2Msg} (hl : State.Latched cfg s) (hv : s.s2.val = true)
    (hc : State.Carries cfg s.s2 m) :
    s.mesiWriteS2 cfg =
      if m.icacheType then none
      else (s.copyOf cfg s.s2.address).bind fun way =>
        if m.reqtype ≠ .loadFwd then some (way, .i)
        else if (s.arrays.mesi.rows (cfg.cacheIndex s.s2.address) way).me then some (way, .s) else none := by
  have hpass : s.s2.d.reqtype.isPass = true := hc.isPass
  obtain ⟨-, -, hread, hop⟩ := @decoder_pass cfg _ hpass
  have hr := hc.reqtype
  rw [State.mesiWriteS2, S2.ctl, hop]
  rw [Noc2Msg.passReqtype] at hr
  cases hi : m.icacheType with
  | true =>
      rw [hi, if_pos rfl] at hr
      rw [hr, if_pos rfl]
  | false =>
      rw [hi, if_neg (by simp)] at hr
      obtain ⟨hm, hd⟩ := hread (by rw [hr]; cases m.reqtype <;> simp)
      have htag := State.tagcheckS2_eq hl hv hm hd
      have hmesi := State.mesiReadData_eq hl hv hm
      have hmes : ∀ way, s.copyOf cfg s.s2.address = some way →
          s.arrays.mesi.rows (s.cacheIndexS2 cfg) way ≠ .i := by
        intro way hway
        have := List.find?_some hway
        simp only [Bool.and_eq_true, bne_iff_ne] at this
        exact this.2
      have hstate : s.tagcheckStateS2 cfg =
          (s.copyOf cfg s.s2.address).elim .i (s.arrays.mesi.rows (s.cacheIndexS2 cfg)) := by
        rw [State.tagcheckStateS2, htag, hmesi]
      have hway : s.tagcheckWayS2 cfg = (s.copyOf cfg s.s2.address).getD 0 := by rw [State.tagcheckWayS2, htag]
      rw [hr, hstate, hway]
      by_cases hload : m.reqtype = .loadFwd
      · cases s.copyOf cfg s.s2.address with
        | none => simp [hload, Mesi.me]
        | some way =>
            cases hme : (s.arrays.mesi.rows (cfg.cacheIndex s.s2.address) way).me <;>
              simp [hload, State.cacheIndexS2, hme]
      · cases hcopy : s.copyOf cfg s.s2.address with
        | none => cases hq : m.reqtype <;> simp_all [Mesi.mes]
        | some way =>
            have hmes' : (s.arrays.mesi.rows (s.cacheIndexS2 cfg) way).mes = true := by
              have := hmes way hcopy
              revert this
              cases s.arrays.mesi.rows (s.cacheIndexS2 cfg) way <;> simp [Mesi.mes]
            cases hq : m.reqtype <;> simp_all

theorem mesiWriteS2_lowers {s : State} {m : Noc2Msg} {w : Nat × Mesi} (hl : State.Latched cfg s) (hv : s.s2.val = true)
    (hc : State.Carries cfg s.s2 m) (hw : s.mesiWriteS2 cfg = some w) :
    w.2 = .i ∨ (s.arrays.mesi.rows (s.cacheIndexS2 cfg) w.1).me = true := by
  rw [mesiWriteS2_pass hl hv hc] at hw
  split at hw
  · cases hw
  · obtain ⟨way, -, hw⟩ := Option.bind_eq_some_iff.mp hw
    split_ifs at hw with hload hme
    · rw [← Option.some.inj hw]
      exact .inl rfl
    · rw [← Option.some.inj hw]
      exact .inr hme

namespace Clears

variable (h : Clears cfg t)
include h

theorem block_cleared (hdtag : (t.l15.step cfg i).arrays.dtag = t.l15.arrays.dtag)
    (hmesi : ∀ index way, (t.l15.step cfg i).arrays.mesi.rows index way = t.l15.arrays.mesi.rows index way ∨
      (t.l15.step cfg i).arrays.mesi.rows index way = .i ∨ (t.l15.arrays.mesi.rows index way).me = true)
    {p : Pass} (hp : p ∈ t.block) (hi : p.msg.icacheType = false) (hc : p.copies ≤ 1) : p.Cleared cfg (t.l15.step cfg i) := by
  intro way hway htag
  rw [hdtag] at htag
  have hold := h.cleared p hp hi hc way hway htag
  rcases hmesi (cfg.cacheIndex p.address) way with he | he | he
  · rw [he]
    exact hold
  · exact .inl he
  · rcases hold with hold | ⟨-, hold⟩ <;> rw [hold] at he <;> cases he

theorem pass_cleared (hl : State.Latched cfg t.l15) (hc : State.Carries cfg t.l15.s2 t.msgS2)
    (hdtag : (t.l15.step cfg i).arrays.dtag = t.l15.arrays.dtag) (hv : t.l15.s2.val = true)
    (h2 : t.l15.stallS2 cfg i = false) (hi : t.msgS2.icacheType = false)
    (hcopies : t.l15.copies cfg t.l15.s2.address ≤ 1) {n : Nat} {st : Mesi} :
    (Pass.mk t.msgS2 t.l15.s2.d.fetchState st n).Cleared cfg (t.l15.step cfg i) := by
  intro way hway htag
  have haddr : (Pass.mk t.msgS2 t.l15.s2.d.fetchState st n).address = t.l15.s2.address := hc.address.symm
  rw [haddr] at htag ⊢
  rw [hdtag] at htag
  rw [mesi_rows_of_move hv h2 h.notLastInv, mesiWriteS2_pass hl hv hc, hi, if_neg (by simp), State.cacheIndexS2]
  cases hcopy : t.l15.copyOf cfg t.l15.s2.address with
  | none =>
      left
      have := List.find?_eq_none.mp hcopy way (List.mem_range.mpr hway)
      simpa [htag] using this
  | some found =>
      have hf := List.find?_some hcopy
      have hlt := List.mem_range.mp (List.mem_of_find?_eq_some hcopy)
      simp only [Bool.and_eq_true, beq_iff_eq, bne_iff_ne] at hf
      by_cases hw : way = found
      · subst hw
        by_cases hload : t.msgS2.reqtype = .loadFwd
        · right
          refine ⟨hload, ?_⟩
          cases hst : t.l15.arrays.mesi.rows (cfg.cacheIndex t.l15.s2.address) way <;> simp_all [Mesi.me]
        · left
          simp [hload]
      · left
        have hz : t.l15.arrays.mesi.rows (cfg.cacheIndex t.l15.s2.address) way = .i := by
          by_contra hne
          exact hw (copies_unique hcopies hway hlt htag hf.1.symm hne hf.2)
        simp only [Option.bind_some]
        split_ifs <;> simp [hw, hz]

theorem suffix_step : (t.step cfg i).block <:+ (t.step cfg i).passes := by
  cases h2 : t.l15.stallS2 cfg i with
  | true => simpa [Answered.step, h2] using h.suffix
  | false =>
      simp only [Answered.step, h2, Bool.not_false, Bool.and_true, Bool.false_eq_true, if_false]
      cases hv : t.l15.s2.val with
      | false => simpa [passS2, State.passInS2, hv] using h.suffix
      | true =>
          rw [if_pos rfl]
          cases t.passS2 cfg with
          | none => exact List.nil_suffix
          | some p =>
              simp only [blockNext, Option.toList_some]
              split
              · exact List.suffix_append _ _
              · obtain ⟨old, he⟩ := h.suffix
                exact ⟨old, by rw [← List.append_assoc, he]⟩

theorem step (h16 : cfg.organisation = .serial16) (ho : Ordered cfg t) (hA : State.Awaited cfg t.l15)
    (hl : State.Latched cfg t.l15) : Clears cfg (t.step cfg i) where
  notLastInv := by
    cases h2 : t.l15.stallS2 cfg i with
    | true =>
        obtain ⟨k, he⟩ := s2_of_stall h2
        rw [step_l15, he]
        exact h.notLastInv
    | false =>
        rw [step_l15, State.step_s2, State.s2Next_of_move h2]
        simp [State.s2Latch, State.notLastInvS1, Config.lineSize, h16]
  suffix := h.suffix_step
  cleared := by
    intro p hp hi hc
    cases h2 : t.l15.stallS2 cfg i with
    | true =>
        have hb : (t.step cfg i).block = t.block := by simp [Answered.step, h2]
        rw [hb] at hp
        have ha := State.acceptS1_of_stallS2 h2
        refine h.block_cleared (by simp [State.arraysNext, State.dtagNext, ha]) (fun index way => .inl ?_) hp hi hc
        simp [State.arraysNext, State.mesiWrite, h2]
    | false =>
        have hb : (t.step cfg i).block = if t.l15.s2.val then blockNext t.block (t.passS2 cfg) else t.block := by
          simp [Answered.step, h2]
        rw [hb] at hp
        cases hv : t.l15.s2.val with
        | false =>
            rw [hv, if_neg (by simp)] at hp
            refine h.block_cleared (dtag_step ho hA (.inr ⟨hv, List.ne_nil_of_mem hp⟩)) (fun index way => .inl ?_) hp hi hc
            simp [State.arraysNext, State.mesiWrite, hv]
        | true =>
            rw [hv, if_pos rfl] at hp
            cases hpass : t.l15.passInS2 with
            | false => simp [passS2, hpass, blockNext] at hp
            | true =>
                have hcar := ho.carries hpass
                have hdtag := dtag_step (i := i) ho hA (.inl hpass)
                have hold : ∀ q ∈ t.block, q.msg.icacheType = false → q.copies ≤ 1 → q.Cleared cfg (t.l15.step cfg i) := by
                  intro q hq hqi hqc
                  refine h.block_cleared hdtag (fun index way => ?_) hq hqi hqc
                  rw [mesi_rows_of_move hv h2 h.notLastInv]
                  cases hw : t.l15.mesiWriteS2 cfg with
                  | none => exact .inl rfl
                  | some w =>
                      by_cases hx : index = t.l15.cacheIndexS2 cfg
                      · by_cases hy : way = w.1
                        · right
                          subst hx hy
                          simpa using mesiWriteS2_lowers hl hv hcar hw
                        · left
                          simp [hx, hy]
                      · left
                        simp [hx]
                rw [passS2, hpass, if_pos rfl] at hp
                by_cases hq : p ∈ t.block
                · exact hold p hq hi hc
                · have he : p = ⟨t.msgS2, t.l15.s2.d.fetchState, t.l15.tagcheckStateS2 cfg, t.l15.copies cfg t.l15.s2.address⟩ := by
                    simp only [blockNext] at hp
                    split at hp
                    · exact List.mem_singleton.mp hp
                    · exact (List.mem_append.mp hp).elim (fun hp => absurd hp hq) List.mem_singleton.mp
                  subst he
                  exact h.pass_cleared hl hcar hdtag hv h2 hi hc

end Clears

/-! ## The acknowledgements of one forward -/

/-- What the passes of a forward are to answer: the data of each subline in M below the last subline of
the vector, then the last one, with its data if it is in M. -/
def answers (m : Noc2Msg) (ps : List Pass) : List FwdAck :=
  let last := State.lastSubline m.fwdSubcachelineVector
  ((ps.filter fun p => p.found == .m && decide (p.sublineId < last)).map fun p => ⟨m.ackType, p.address, false, true⟩) ++
    (ps.filter fun p => p.sublineId == last).map fun p => ⟨m.ackType, p.address, true, p.found == .m⟩

/-- The vectors an instruction-cache invalidation is acknowledged for. -/
def icacheAccepts (v : BitVec 4) : Bool := v.getLsbD 3 && v.getLsbD 2 || v == 0b0011#4

theorem addressPlus_subline (address : Nat) {k : Nat} (hk : k < 4) : Predecode.addressPlus address k / 16 % 4 = k := by
  rw [Predecode.addressPlus]
  omega

theorem dataInvalAddress_subline (fs : FetchState) (address : Nat) :
    Predecode.dataInvalAddress fs address / 16 % 4 = fs.subline := by
  cases fs <;> exact addressPlus_subline address (by decide)

theorem isLastDataInval_eq {fs : FetchState} {v : BitVec 4} (h16 : cfg.organisation = .serial16) (hv : v ≠ 0)
    (hfs : fs ∈ [.normal, .inval2, .inval3, .inval4]) :
    Predecode.isLastDataInval cfg fs v = (State.lastSubline v == fs.subline) := by
  have hl : cfg.lineSize = 16 := by simp [Config.lineSize, h16]
  simp only [Predecode.isLastDataInval, hl, List.mem_cons, List.not_mem_nil, or_false] at hfs ⊢
  revert v
  rcases hfs with rfl | rfl | rfl | rfl <;> decide

theorem le_lastSubline {v : BitVec 4} {k : Nat} (h : v.getLsbD k = true) : k ≤ State.lastSubline v := by
  have hk : k < 4 := BitVec.lt_of_getLsbD h
  rcases (by omega : k = 0 ∨ k = 1 ∨ k = 2 ∨ k = 3) with rfl | rfl | rfl | rfl <;> revert v <;> decide

/-- A pass of a data forward answers the last subline, and before it those in M. -/
theorem ack_data (h16 : cfg.organisation = .serial16) {p : Pass} (hd : p.msg.dataForward = true)
    (hv : p.msg.fwdSubcachelineVector ≠ 0) (hfs : p.fetchState ∈ [.normal, .inval2, .inval3, .inval4]) :
    p.ack cfg = if State.lastSubline p.msg.fwdSubcachelineVector = p.sublineId ∨ p.found = .m then
      some ⟨p.msg.ackType, p.address, State.lastSubline p.msg.fwdSubcachelineVector == p.sublineId, p.found == .m⟩
    else none := by
  have hi : p.msg.icacheType = false := by
    simp only [Noc2Msg.dataForward, Bool.and_eq_true, Bool.not_eq_true'] at hd
    exact hd.2
  have hs : p.sublineId = p.fetchState.subline := by
    rw [Pass.sublineId, Pass.address, Noc2Msg.passAddress, hi]
    exact dataInvalAddress_subline _ _
  have hl : p.msg.isLastInval cfg p.fetchState = (State.lastSubline p.msg.fwdSubcachelineVector == p.sublineId) := by
    rw [Noc2Msg.isLastInval, hi, if_neg (by simp), isLastDataInval_eq h16 hv hfs, hs]
  rw [Pass.ack, hl, hi]
  simp

/-- Passes in the order of their sublines, none above the last in M, answer the lower ones and the last. -/
theorem filterMap_ack {m : Noc2Msg} {ps : List Pass} (hs : ps.Pairwise fun p q => p.sublineId < q.sublineId)
    (hm : ∀ p ∈ ps, p.found = .m → p.sublineId ≤ State.lastSubline m.fwdSubcachelineVector)
    (hack : ∀ p ∈ ps, p.ack cfg =
      if State.lastSubline m.fwdSubcachelineVector = p.sublineId ∨ p.found = .m then
        some ⟨m.ackType, p.address, State.lastSubline m.fwdSubcachelineVector == p.sublineId, p.found == .m⟩
      else none) : ps.filterMap (Pass.ack cfg) = answers m ps := by
  rw [answers]
  generalize State.lastSubline m.fwdSubcachelineVector = last at hm hack ⊢
  induction ps with
  | nil => rfl
  | cons p ps ih =>
      obtain ⟨hp, hs⟩ := List.pairwise_cons.mp hs
      have ih := ih hs (fun q hq => hm q (List.mem_cons_of_mem p hq)) (fun q hq => hack q (List.mem_cons_of_mem p hq))
      have hmp := hm p List.mem_cons_self
      have hap := hack p List.mem_cons_self
      rcases Nat.lt_trichotomy p.sublineId last with hlt | heq | hgt
      · have hne : ¬ last = p.sublineId := by omega
        by_cases hf : p.found = .m <;> simp [hap, ih, hne, hlt, hf, Nat.ne_of_lt hlt]
      · -- no pass after the last finds its line in M
        have hrest : ∀ q ∈ ps, q.ack cfg = none ∧ ¬ q.sublineId < last ∧ q.sublineId ≠ last := by
          intro q hq
          have hlt := hp q hq
          have hqm : ¬ q.found = .m := fun hf => by
            have := hm q (List.mem_cons_of_mem p hq) hf
            omega
          have hne : ¬ last = q.sublineId := by omega
          refine ⟨by rw [hack q (List.mem_cons_of_mem p hq)]; simp [hqm, hne], by omega, by omega⟩
        have h1 : ps.filterMap (Pass.ack cfg) = [] := List.filterMap_eq_nil_iff.mpr fun q hq => (hrest q hq).1
        have h2 : (ps.filter fun q => q.found == .m && decide (q.sublineId < last)) = [] :=
          List.filter_eq_nil_iff.mpr fun q hq => by simp [(hrest q hq).2.1]
        have h3 : (ps.filter fun q => q.sublineId == last) = [] :=
          List.filter_eq_nil_iff.mpr fun q hq => by simp [(hrest q hq).2.2]
        simp [hap, heq, h1, h2, h3]
      · have hf : ¬ p.found = .m := fun hf => by
          have := hmp hf
          omega
        have hne : ¬ last = p.sublineId := by omega
        simp [hap, ih, hne, hf, Nat.ne_of_gt hgt]

section Data

variable (h16 : cfg.organisation = .serial16) {m : Noc2Msg} (hd : m.dataForward = true) {ps : List Pass}
  (hk : ps.map Pass.key = keys cfg m)
include h16 hd hk

theorem keys_data : ps.map Pass.key = [.normal, .inval2, .inval3, .inval4].map (m, ·) := by
  rw [hk]
  simp [keys, Noc2Msg.passes, hd, State.parallelSrams_serial16 h16]

theorem mem_data {p : Pass} (hp : p ∈ ps) : p.msg = m ∧ p.fetchState ∈ [.normal, .inval2, .inval3, .inval4] := by
  have hkey := @List.mem_map_of_mem _ _ _ _ Pass.key hp
  rw [keys_data h16 hd hk, List.mem_map] at hkey
  obtain ⟨fs, hfs, he⟩ := hkey
  rw [Pass.key, Prod.mk.injEq] at he
  exact ⟨he.1.symm, he.2 ▸ hfs⟩

theorem sublines_data : ps.map Pass.sublineId = [0, 1, 2, 3] := by
  have hi : m.icacheType = false := by
    simp only [Noc2Msg.dataForward, Bool.and_eq_true, Bool.not_eq_true'] at hd
    exact hd.2
  have hsub : ∀ p ∈ ps, p.sublineId = p.fetchState.subline := by
    intro p hp
    rw [Pass.sublineId, Pass.address, (mem_data h16 hd hk hp).1, Noc2Msg.passAddress, hi]
    exact dataInvalAddress_subline _ _
  calc ps.map Pass.sublineId = ps.map (fun p => p.key.2.subline) := List.map_congr_left hsub
    _ = (ps.map Pass.key).map (fun k => k.2.subline) := by rw [List.map_map]; rfl
    _ = [0, 1, 2, 3] := by rw [keys_data h16 hd hk]; rfl

theorem acks_data (hv : m.fwdSubcachelineVector ≠ 0)
    (hm : ∀ p ∈ ps, p.found = .m → m.fwdSubcachelineVector.getLsbD p.sublineId = true) :
    ps.filterMap (Pass.ack cfg) = answers m ps := by
  apply filterMap_ack
  · rw [← @List.pairwise_map _ _ Pass.sublineId, sublines_data h16 hd hk]
    decide
  · exact fun p hp hf => le_lastSubline (hm p hp hf)
  · intro p hp
    obtain ⟨rfl, hfs⟩ := mem_data h16 hd hk hp
    exact ack_data h16 hd hv hfs

end Data

theorem acks_icache {m : Noc2Msg} (hd : m.icacheForward = true) (ha : icacheAccepts m.fwdSubcachelineVector = true)
    {ps : List Pass} (hk : ps.map Pass.key = keys cfg m) :
    ∃ p ∈ ps, ps.filterMap (Pass.ack cfg) = [⟨.icacheInvalAck, p.address, true, false⟩] := by
  have hi : m.icacheType = true := by
    simp only [Noc2Msg.icacheForward, Bool.and_eq_true] at hd
    exact hd.2
  have hack : ∀ p : Pass, p.msg = m → p.ack cfg =
      if Predecode.isLastIcacheInval cfg p.fetchState m.fwdSubcachelineVector then
        some ⟨.icacheInvalAck, p.address, true, false⟩ else none := by
    rintro p rfl
    simp [Pass.ack, Noc2Msg.isLastInval, Noc2Msg.ackType, hi]
  have hnd : m.dataForward = false := by simp [Noc2Msg.dataForward, hi]
  rw [keys, Noc2Msg.passes, hnd, hd] at hk
  revert ha
  cases h64 : cfg.icache64B with
  | true =>
      rw [h64] at hk
      obtain ⟨p, ps, rfl, h0, hk⟩ := List.map_eq_cons_iff.mp hk
      obtain rfl : ps = [] := List.map_eq_nil_iff.mp hk
      simp only [Pass.key, Prod.mk.injEq] at h0
      intro ha
      refine ⟨p, List.mem_singleton_self p, ?_⟩
      have hl : Predecode.isLastIcacheInval cfg p.fetchState m.fwdSubcachelineVector = true := by
        rw [Predecode.isLastIcacheInval, h0.2, h64]
        simpa [icacheAccepts] using ha
      simp [hack p h0.1, hl]
  | false =>
      rw [h64] at hk
      obtain ⟨p, ps, rfl, h0, hk⟩ := List.map_eq_cons_iff.mp hk
      obtain ⟨q, ps, rfl, h1, hk⟩ := List.map_eq_cons_iff.mp hk
      obtain rfl : ps = [] := List.map_eq_nil_iff.mp hk
      simp only [Pass.key, Prod.mk.injEq] at h0 h1
      intro ha
      have hlp : Predecode.isLastIcacheInval cfg p.fetchState m.fwdSubcachelineVector =
          (m.fwdSubcachelineVector == 0b0011#4) := by
        rw [Predecode.isLastIcacheInval, h0.2, h64]
        simp
      have hlq : Predecode.isLastIcacheInval cfg q.fetchState m.fwdSubcachelineVector =
          (m.fwdSubcachelineVector.getLsbD 3 && m.fwdSubcachelineVector.getLsbD 2) := by
        rw [Predecode.isLastIcacheInval, h1.2, h64]
        simp
      by_cases hv : m.fwdSubcachelineVector = 0b0011#4
      · refine ⟨p, List.mem_cons_self, ?_⟩
        have hap := hack p h0.1
        have haq := hack q h1.1
        rw [hlp, hv] at hap
        rw [hlq, hv] at haq
        rw [List.filterMap_cons, hap, List.filterMap_cons, haq]
        rfl
      · refine ⟨q, List.mem_cons_of_mem _ List.mem_cons_self, ?_⟩
        have : (m.fwdSubcachelineVector.getLsbD 3 && m.fwdSubcachelineVector.getLsbD 2) = true := by
          simpa [icacheAccepts, hv] using ha
        have hap := hack p h0.1
        have haq := hack q h1.1
        rw [hlp, beq_eq_false_iff_ne.mpr hv] at hap
        rw [hlq, this] at haq
        rw [List.filterMap_cons, hap, List.filterMap_cons, haq]
        rfl

/-! ## Runs -/

theorem exists_rounds {ps : List Pass} {ms : List Noc2Msg} (h : ps.map Pass.key = ms.flatMap (keys cfg)) :
    ∃ rounds : List (List Pass), List.Forall₂ (fun m ps => ps.map Pass.key = keys cfg m) ms rounds ∧ ps = rounds.flatten := by
  induction ms generalizing ps with
  | nil => exact ⟨[], .nil, by simpa using h⟩
  | cons m ms ih =>
      rw [List.flatMap_cons] at h
      obtain ⟨round, rest, rfl, hround, hrest⟩ := List.map_eq_append_iff.mp h
      obtain ⟨rounds, hr, rfl⟩ := ih hrest
      exact ⟨round :: rounds, .cons hround hr, rfl⟩

/-- What the L2 can rely on: each forward has all its passes, under its own fields and in order; the
acknowledgements sent and offered are those of the passes, for a data forward whose vector covers the
sublines in M one for each of these and the last, for an instruction-cache invalidation one; each
message is consumed once; and the passes of a block have cleared its lines. -/
structure Acknowledged (cfg : Config) (t : Answered) : Prop where
  passes : t.passes.map Pass.key ++ t.passesS2 ++ t.l15.passesS1 = t.begun.flatMap (keys cfg)
  acks : t.acks ++ (t.l15.answerS3 cfg).toList = t.passes.filterMap (Pass.ack cfg)
  data : ∀ m (ps : List Pass), ps.map Pass.key = keys cfg m → m.dataForward = true → m.fwdSubcachelineVector ≠ 0 →
    (∀ p ∈ ps, p.found = .m → m.fwdSubcachelineVector.getLsbD p.sublineId = true) →
      ps.filterMap (Pass.ack cfg) = answers m ps ∧ ps.map Pass.sublineId = [0, 1, 2, 3]
  icache : ∀ m (ps : List Pass), ps.map Pass.key = keys cfg m → m.icacheForward = true →
    icacheAccepts m.fwdSubcachelineVector = true →
      ∃ p ∈ ps, ps.filterMap (Pass.ack cfg) = [⟨.icacheInvalAck, p.address, true, false⟩]
  /-- With no pass under way, the acknowledgements are those of the messages begun, one round each. -/
  rounds : t.passesS2 = [] → t.l15.passesS1 = [] → ∃ rounds : List (List Pass),
    List.Forall₂ (fun m ps => ps.map Pass.key = keys cfg m) t.begun rounds ∧
      t.acks ++ (t.l15.answerS3 cfg).toList = rounds.flatMap (List.filterMap (Pass.ack cfg))
  consumed : t.begun = t.consumed ++ t.waiting
  current : t.current = [] ∨ ∃ m ∈ t.begun, t.current = keys cfg m
  block : t.block <:+ t.passes
  cleared : ∀ p ∈ t.block, p.msg.icacheType = false → p.copies ≤ 1 → p.Cleared cfg t.l15

structure Inv (cfg : Config) (t : Answered) : Prop where
  piped : State.Piped cfg t.l15
  awaited : State.Awaited cfg t.l15
  ordered : Ordered cfg t
  consumes : Consumes t
  clears : Clears cfg t
  acks : t.acks ++ (t.l15.answerS3 cfg).toList = t.passes.filterMap (Pass.ack cfg)

theorem Inv.step (h16 : cfg.organisation = .serial16) (h : Inv cfg t) (hu : State.Undisturbed cfg t.l15 i) :
    Inv cfg (t.step cfg i) := by
  have hb := h.piped.beats
  have hsg := State.single_of_undisturbed h16 hb hu
  exact
    { piped := h.piped.step
      awaited := h.awaited.step hb hsg
      ordered := h.ordered.step h.awaited hb hsg
      consumes := h.consumes.step h.awaited hb hsg
      clears := h.clears.step h16 h.ordered h.awaited h.piped.latched
      acks := acks_step h16 h.ordered hb h.acks }

theorem Init.inv (h : Init t) : Inv cfg t := by
  obtain ⟨hl, hbegun, hconsumed, hpasses, hblock, hacks⟩ := h
  have hin : t.l15.passInS2 = false := by simp [State.passInS2, hl.s2]
  have hS2 : t.passesS2 = [] := by simp [passesS2, hin]
  have hS1 : t.l15.passesS1 = [] := by simp [State.passesS1, hl.fetchState, FetchState.passes]
  have hS3 : t.l15.answerS3 cfg = none := by simp [State.answerS3, State.noc3encoderReq, State.noc3encoderReqVal, hl.s3]
  refine ⟨hl.piped, hl.awaited, ⟨?_, ?_, .inl ?_, ?_, ?_⟩, ⟨?_, ?_, ?_⟩, ⟨?_, ?_, ?_⟩, ?_⟩
  · simp [hin]
  · simp [hpasses, hS2, hS1, hbegun]
  · simp [Answered.current, hblock, hS2, hS1]
  · simp [hS1]
  · simp [hl.fetchState]
  · exact fun _ => hl.noc2New
  · simp [hl.fetchState]
  · simp [hbegun, hconsumed, waiting, hl.noc2State]
  · rw [hl.s2]
  · simp [hblock]
  · simp [hblock]
  · simp [hacks, hS3, hpasses]

/-- A forward is answered for each subline in M and for the last, under its own fields, and consumed
once. -/
theorem forwards_acknowledged (h16 : cfg.organisation = .serial16)
    (h : Machine.Reaches Init (step cfg) (fun t i => State.Undisturbed cfg t.l15 i) t) : Acknowledged cfg t := by
  have hI : Inv cfg t := h.invariant (fun _ h => h.inv) fun _ _ hI hu => hI.step h16 hu
  exact
    { passes := hI.ordered.passes
      acks := hI.acks
      data := fun m ps hk hd hv hm => ⟨acks_data h16 hd hk hv hm, sublines_data h16 hd hk⟩
      icache := fun m ps hk hd ha => acks_icache hd ha hk
      rounds := fun h2 h1 => by
        have hp := hI.ordered.passes
        rw [h2, h1, List.append_nil, List.append_nil] at hp
        obtain ⟨rounds, hr, he⟩ := exists_rounds hp
        exact ⟨rounds, hr, by rw [hI.acks, he, List.filterMap_flatten, List.flatMap_def]⟩
      consumed := hI.consumes.consumed
      current := hI.ordered.current
      block := hI.clears.suffix
      cleared := hI.clears.cleared }

def reset : Answered := ⟨State.reset, [], [], {}, [], [], []⟩

theorem init_reset : reset.Init := ⟨State.init_reset, rfl, rfl, rfl, rfl, rfl⟩

/-- A store that misses, its fill in M, and a forward that invalidates the block. -/
def storeInvalidated : List Input :=
  let store : PcxReq := { rqtype := .store, address := 0x1010, data := 7 }
  let fill : Noc2Msg := { reqtype := .dataAck, mshrType := .st, ackState := .m, data := [1, 2] }
  let forward : Noc2Msg := { reqtype := .invFwd, fwdSubcachelineVector := 0b1010#4, address := 0x1000 }
  [{ pcx := some store }, {}, {}, {}, { noc2 := some fill }, {}, {}, {}, {}, {}, {}, { noc2 := some forward }, {}, {}, {},
    {}, {}, {}]

theorem forwards_acknowledged_storeInvalidated :
    Acknowledged .default (Machine.run (step .default) reset storeInvalidated) ∧
      (Machine.run (step .default) reset storeInvalidated).acks =
        [⟨.invalAck, 0x1010, false, true⟩, ⟨.invalAck, 0x1030, true, false⟩] :=
  ⟨forwards_acknowledged rfl ((Machine.Reaches.start init_reset).run (by decide +kernel)), by decide +kernel⟩

/-- An invalidation of the lower half of an instruction-cache line, and the next message under its
second pass, behind a load whose response the CPX encoder does not take. -/
def secondPassLate : List Input :=
  let prefetch : PcxReq := { rqtype := .load, address := 0x40, prefetch := true }
  let lowerHalf : Noc2Msg :=
    { reqtype := .invFwd, icacheType := true, fwdSubcachelineVector := 0b0011#4, address := 0x1000 }
  let next : Noc2Msg := { reqtype := .loadFwd, fwdSubcachelineVector := 0b1000#4, address := 0x2000 }
  [{ pcx := some prefetch }, { noc2 := some lowerHalf }, { cpxAck := false }, { cpxAck := false },
    { cpxAck := false, noc2 := some next }, { cpxAck := false }, {}, {}, {}, {}, {}]

/-- The message is released by its first pass, and the second takes the fields of the next. -/
theorem forwards_not_acknowledged :
    (Machine.run (step .default) reset secondPassLate).passes.map (fun p => (p.msg.address, p.fetchState)) =
        [(0x1000, .normal), (0x2000, .icacheInval2)] ∧
      ¬ Acknowledged .default (Machine.run (step .default) reset secondPassLate) :=
  ⟨by decide +kernel, fun h => absurd h.passes (by decide +kernel)⟩

end Answered

end OpenPiton.L15
