import OpenPiton.L15.Slots

namespace OpenPiton.L15

/-- The requests the L2 answers with a fill that may evict a line. -/
def Noc1Reqtype.fills (reqtype : Noc1Reqtype) (nonCacheable : Bool) : Bool :=
  match reqtype with
  | .stUpgradeRequest | .stFillRequest | .lrRequest => true
  | .ldRequest => !nonCacheable
  | _ => false

def Noc1Command.fills (c : Noc1Command) : Bool := c.reqtype.fills c.nonCacheable

/-- A load is marked non-cacheable exactly when it is decoded as one. -/
structure NcAgrees (d : DecoderIn) (nc : Bool) : Prop where
  load : d.reqtype = .load → nc = false
  loadNc : d.reqtype = .loadNc → nc = true

theorem decoder_load (cfg : Config) (d : DecoderIn) :
    ((decoder cfg d).noc1Op == .dataLdRequestIfTagcheckMiss && d.reqtype != .load ||
      (decoder cfg d).noc1Op == .dataLdRequest && d.reqtype != .loadNc) = false := by
  obtain ⟨fs, reqtype, last, dis, hit, broadcast⟩ := d
  cases reqtype with
  | writethrough => cases dis <;> cases fs <;> rfl
  | store => cases hit <;> rfl
  | pcxInterrupt => cases broadcast <;> rfl
  | loadNc | lineFlush | cas | swpLoadstub | amoLr | amo | ackdtLd | ackdtStIm | ackdtLr => cases fs <;> rfl
  | _ => rfl

theorem ofPcx_ncAgrees (cfg : Config) (pcx : PcxReq) :
    ((Predecode.ofPcx cfg pcx).reqtype = .load → pcx.nc = false) ∧
      ((Predecode.ofPcx cfg pcx).reqtype = .loadNc → pcx.nc = true) := by
  unfold Predecode.ofPcx
  cases hq : pcx.rqtype with
  | load => simp only [Predecode.loadReqtype]; constructor <;> split_ifs <;> simp_all
  | store => simp only [Predecode.storeReqtype]; constructor <;> split_ifs <;> simp
  | ifill => constructor <;> simp <;> split_ifs <;> simp
  | amo op => cases op <;> simp [Predecode.amoReqtype]
  | cmo op => cases op <;> simp
  | interrupt | other | unknown => simp

namespace State

variable {cfg : Config} {s : State} {i : Input}

theorem ncAgrees_preS1 : NcAgrees (s.decoderInS1 cfg) (s.preS1 cfg).nonCacheable := by
  have hr : (s.decoderInS1 cfg).reqtype = (s.preS1 cfg).reqtype := rfl
  cases hs : (s.preS1 cfg).source with
  | pcx =>
      rw [(preS1_of_pcx hs).1] at hr
      rw [(preS1_of_pcx hs).2]
      exact ⟨fun h => (ofPcx_ncAgrees cfg _).1 (hr ▸ h), fun h => (ofPcx_ncAgrees cfg _).2 (hr ▸ h)⟩
  | noc2 =>
      rw [preS1_of_noc2 hs] at hr
      by_cases hi : (s.decoderInS1 cfg).reqtype = .ignore
      · constructor <;> simp [hi]
      · have hf := ofNoc2_fromNoc2 _ _ _ _ (hr ▸ hi)
        rw [← hr] at hf
        constructor <;> intro h <;> rw [h] at hf <;> cases hf
  | invalid =>
      have hv : (s.preS1 cfg).val = false := by simp [Predecode.val, hs]
      rw [(preS1_of_invalid hv).2] at hr
      constructor <;> simp [hr]

def NcKept (s : State) : Prop := NcAgrees s.s2.d s.s2.nonCacheable ∧ NcAgrees s.s3.d s.s3.nonCacheable

theorem NcKept.step (h : NcKept s) : NcKept (s.step cfg i) := by
  constructor
  · rw [step_s2]
    rcases s2_cases cfg s i with ⟨_, _, he⟩ | ⟨_, _, _, he⟩ | ⟨_, _, he⟩ <;> rw [he]
    · exact h.1
    · exact h.1
    · exact ncAgrees_preS1
  · rw [step_s3]
    cases hst : s.stallS3 cfg i with
    | true => rw [s3Next_of_stall hst]; exact h.2
    | false => rw [s3Next_of_move hst]; exact h.1

/-! ## The reserve -/

theorem stallS3_of_quiet (hx : s.cpxReqS3 cfg = none) (hn : (s.s3.ctl cfg).noc3Op = .none) :
    s.stallS3 cfg i = false := by
  simp [stallS3, stallForCpxS3, stallForNoc3S3, cpxencoderVal, noc3encoderReqVal, hx, noc3ReqValS3, hn]

theorem stallS3_of_reserve (h : s.reserveS3 cfg = true) : s.stallS3 cfg i = false := by
  have hc : (s.s3.ctl cfg).companions = true := decoder_companions cfg s.s3.d
  simp only [reserveS3, noc1ReqValS3] at h
  cases hop : (s.s3.ctl cfg).noc1Op <;> simp only [hop, Bool.false_eq_true] at h <;>
    simp only [Ctl.companions, hop, Bool.and_eq_true, beq_iff_eq] at hc h
  case dataLdRequestIfTagcheckMiss =>
    refine stallS3_of_quiet ?_ hc.1.2
    simpa [cpxReqS3, hc.1.1.2] using h.2
  case dataStUpgradeIfTagcheckSElseStFillIfTagcheckI =>
    refine stallS3_of_quiet ?_ hc.1.2
    have hme : s.s3.tagcheckState.me = false := by
      have := h.2
      cases hst : s.s3.tagcheckState <;> simp_all [Mesi.me]
    simp [cpxReqS3, hc.1.1.2, hme]
  case dataLrRequest =>
    refine stallS3_of_quiet ?_ hc.2
    simp [cpxReqS3, hc.1.2]

/-- The reserve is raised with each write of a request that a fill answers, and with no other. -/
theorem reserveS3_iff (hm : s.s3.Marked cfg) (hn : NcAgrees s.s3.d s.s3.nonCacheable)
    (hq : s.noc1Staled = true → s.reserveS3 cfg = false) :
    s.reserveS3 cfg = (s.noc1bufferReqVal cfg && (s.noc1TypeS3 cfg).fills s.s3.nonCacheable) := by
  have hld := decoder_load cfg s.s3.d
  rw [noc1bufferReqVal_eq]
  cases hv : s.s3.val with
  | false => simp only [reserveS3, hv, Bool.false_and, Bool.and_false]; split <;> rfl
  | true =>
      cases hr : s.noc1ReqValS3 cfg with
      | false =>
          have hg : (s.s3.ctl cfg).noc1Op ≠ .dataLrRequest := by
            intro hop
            simp [noc1ReqValS3, hop] at hr
          simp only [reserveS3, hv, hr, Bool.and_false, Bool.false_and]
          split <;> simp_all
      | true =>
          have hop := bne_iff_ne.mp (noc1Op_of_reqVal hr)
          have hwb := hm.noc3Wb
          have hbeat : s.s3.noc3Wb = false → s.s3.mshrWrite = false ∧ s.writeBeatS3 cfg = true := by
            intro hnw
            have hbu : s.s3.burst = false := by
              by_contra hb
              simp [noc3Wb_of_reqVal hm hop hr (by simpa using hb)] at hnw
            simp only [S3.burst, Bool.or_eq_false_iff] at hbu
            simp [writeBeatS3, hbu]
          have hst : s.reserveS3 cfg = true → s.noc1Staled = false := by
            intro hrs
            by_contra hc
            simp [hq (by simpa using hc)] at hrs
          simp only [S3.ctl] at hwb hop
          simp only [reserveS3, noc1TypeS3, hv, hr, S3.ctl] at hst ⊢
          cases hk : (decoder cfg s.s3.d).noc1Op <;> simp only [hk] at hwb hst hld ⊢
          case dataLdRequest =>
            have := hn.loadNc (by simpa using hld)
            simp [Noc1Reqtype.fills, this]
          case dataLdRequestIfTagcheckMiss =>
            have := hn.load (by simpa using hld)
            simp [Noc1Reqtype.fills, this, hbeat hwb, hst (by rfl)]
          case dataStUpgradeIfTagcheckSElseStFillIfTagcheckI =>
            simp only [hbeat hwb] at hst ⊢
            rw [hst (by rfl)]
            split <;> rfl
          case dataLrRequest => simp [Noc1Reqtype.fills, hbeat hwb, hst trivial]
          all_goals simp [Noc1Reqtype.fills]

/-! ## The counters -/

theorem availNext_eq {avail needed : Nat} {sent mis accept : Bool} (hn : needed ≤ 2)
    (hle : avail + ((if sent then 1 else 0) + if mis then 1 else 0) ≤ 15)
    (htake : (if accept then needed else 0) ≤ avail + ((if sent then 1 else 0) + if mis then 1 else 0)) :
    availNext avail needed sent mis accept + (if accept then needed else 0) =
      avail + ((if sent then 1 else 0) + if mis then 1 else 0) := by
  have hcases : needed = 0 ∨ needed = 1 ∨ needed = 2 := by omega
  cases sent <;> cases mis <;> cases accept <;> rcases hcases with rfl | rfl | rfl <;>
    simp [availNext, count4] at htake hle ⊢ <;> omega

theorem dataAvailNext_eq {avail words needed : Nat} {sent accept req8B req16B : Bool}
    (hone : (req8B && req16B) = false) (hneed : req8B = true ∨ req16B = true → needed ≠ 0)
    (hw : words ≤ 2) (hs : sent = false → words = 0) (hle : avail + words ≤ 15)
    (htake : (if accept then if req8B then 1 else if req16B then 2 else 0 else 0) ≤ avail + words) :
    dataAvailNext avail words sent (accept && needed != 0) req8B req16B +
        (if accept then if req8B then 1 else if req16B then 2 else 0 else 0) = avail + words := by
  have hcases : words = 0 ∨ words = 1 ∨ words = 2 := by omega
  cases req8B <;> cases req16B <;> cases sent <;> cases accept <;> rcases hcases with rfl | rfl | rfl <;>
    simp at hone hneed hs htake <;> simp [dataAvailNext, count4, hneed] <;> omega

theorem reserveNext_eq {reserve : Nat} {up down : Bool} (hle : reserve < 15) (hdown : down = true → 0 < reserve) :
    reserveNext reserve up down + (if down then 1 else 0) = reserve + if up then 1 else 0 := by
  cases up <;> cases down <;> simp [reserveNext, count4] at hdown ⊢ <;> omega

def slotsAdded (cfg : Config) (s : State) (i : Input) : Nat :=
  (if s.noc1Sent i then 1 else 0) + if s.mispredictedS3 cfg then 1 else 0

def slotsTaken (cfg : Config) (s : State) (i : Input) : Nat :=
  if s.acceptS1 cfg i then (s.ctlS1 cfg).creditmanNoc1Needed else 0

def wordsTaken (cfg : Config) (s : State) (i : Input) : Nat :=
  if s.acceptS1 cfg i then (s.ctlS1 cfg).wordsClaimed else 0

theorem needed_le : (s.ctlS1 cfg).creditmanNoc1Needed ≤ 2 := by
  by_cases h : (s.decoderInS1 cfg).fetchState = .normal
  · rw [ctlS1, decoder_slots_normal cfg _ h, Ctl.slots, DecoderIn.secondPassSlots]
    split_ifs <;> omega
  · have := decoder_slots_second cfg _ h
    rw [ctlS1]
    rw [Ctl.slots] at this
    split_ifs at this <;> omega

/-- `creditman_noc1_avail` counts exactly, as long as it stays in its four bits. -/
theorem creditmanNext_avail (hle : s.credit.avail + s.slotsAdded cfg i ≤ 15)
    (htake : s.slotsTaken cfg i ≤ s.credit.avail + s.slotsAdded cfg i) :
    (s.creditmanNext cfg i).avail + s.slotsTaken cfg i = s.credit.avail + s.slotsAdded cfg i :=
  availNext_eq needed_le hle htake

theorem dataWords_le (r : Noc1Reqtype) : r.dataWords ≤ 2 := by
  cases r <;> simp [Noc1Reqtype.dataWords]

theorem creditmanNext_dataAvail (hle : s.credit.dataAvail + s.noc1DataSent i ≤ 15)
    (htake : s.wordsTaken cfg i ≤ s.credit.dataAvail + s.noc1DataSent i) :
    (s.creditmanNext cfg i).dataAvail + s.wordsTaken cfg i = s.credit.dataAvail + s.noc1DataSent i := by
  refine dataAvailNext_eq (decoder_words cfg (s.decoderInS1 cfg)).1
    (needed_of_words cfg (s.decoderInS1 cfg)) ?_ (fun hs => by simp [noc1DataSent, hs]) hle htake
  simp only [noc1DataSent]
  split_ifs <;> simp [dataWords_le]

theorem creditmanNext_reserve (hle : s.credit.reserve < 15)
    (hdown : (s.acceptS1 cfg i && (s.ctlS1 cfg).creditmanNoc1Unreserve) = true → 0 < s.credit.reserve) :
    (s.creditmanNext cfg i).reserve +
        (if s.acceptS1 cfg i && (s.ctlS1 cfg).creditmanNoc1Unreserve then 1 else 0) =
      s.credit.reserve + if s.reserveS3 cfg then 1 else 0 := by
  have hup : (s.reserveS3 cfg && !s.stallS3 cfg i && s.s3.val) = s.reserveS3 cfg := by
    cases h : s.reserveS3 cfg with
    | false => rfl
    | true =>
        have hv : s.s3.val = true := by
          simp only [reserveS3] at h
          split at h <;> simp_all
        rw [stallS3_of_reserve h, hv]
        rfl
  simp only [creditmanNext, hup]
  exact reserveNext_eq hle hdown

/-! ## What is claimed -/

/-- What the second pass in S1 holds, by the weight of its request. -/
def secondS1 (cfg : Config) (s : State) (f : DecoderIn → Nat) : Nat :=
  if s.fetchState = .normal then 0 else f (s.decoderInS1 cfg)

def claimedSlots (cfg : Config) (s : State) : Nat :=
  s.secondS1 cfg DecoderIn.secondPassSlots + s.claimed cfg fun _ => 1

def claimedWords (cfg : Config) (s : State) : Nat :=
  s.secondS1 cfg DecoderIn.secondPassWords + s.claimed cfg Noc1Op.dataWords

theorem secondS1_of_noc2 {f : DecoderIn → Nat}
    (hf : ∀ d : DecoderIn, FetchState.isTwoPass d.reqtype d.intVecDis = false → f d = 0)
    (h : s.fetchState ≠ .pcxWritebackDone) : s.secondS1 cfg f = 0 := by
  simp only [secondS1]
  split
  · rfl
  · rename_i hn
    refine hf _ (isTwoPass_of_noc2 ?_ _)
    rw [preS1_source]
    cases hfs : s.fetchState <;> simp_all [Predecode.source?]

/-- The claim for a second pass is made by the first pass and goes with the second. -/
theorem secondS1_step {f : DecoderIn → Nat} (hh : Held cfg s) (hi : ¬ Ignored cfg s i)
    (hf : ∀ d : DecoderIn, FetchState.isTwoPass d.reqtype d.intVecDis = false → f d = 0)
    (hd : ∀ d d' : DecoderIn, d.reqtype = d'.reqtype → d.intVecDis = d'.intVecDis → f d = f d') :
    (s.step cfg i).secondS1 cfg f =
      if s.acceptS1 cfg i then (if s.fetchState = .normal then f (s.decoderInS1 cfg) else 0) else s.secondS1 cfg f := by
  have hsame : s.fetchStateNext cfg i = .pcxWritebackDone → (s.preS1 cfg).source = .pcx →
      (s.step cfg i).secondS1 cfg f = f (s.decoderInS1 cfg) := by
    intro hw hs
    have hp := (hh.second_step hi hw).2.2
    have hs' : ((s.step cfg i).preS1 cfg).source = .pcx := by rw [preS1_source, step_fetchState, hw]; rfl
    have hr : ((s.step cfg i).preS1 cfg).reqtype = (s.preS1 cfg).reqtype := by
      rw [(preS1_of_pcx hs').1, (preS1_of_pcx hs).1, hp]
    have hv : ((s.step cfg i).preS1 cfg).intVecDis = (s.preS1 cfg).intVecDis := by
      have : ∀ s : State, (s.preS1 cfg).intVecDis = Predecode.isIntVecDis (s.pcx.getD {}).address := fun _ => rfl
      rw [this, this, hp]
    simp only [secondS1, step_fetchState, hw]
    exact hd _ _ hr hv
  by_cases hw : s.fetchStateNext cfg i = .pcxWritebackDone
  · cases ha : s.acceptS1 cfg i with
    | true =>
        have hw' := hw
        rw [fetchStateNext_of_acceptS1 ha] at hw'
        obtain ⟨hn, h2⟩ := next_pcxWritebackDone _ _ hw'
        have hs : (s.preS1 cfg).source = .pcx := by
          refine (source_of_acceptS1 ha).resolve_right fun hs => ?_
          rw [isTwoPass_of_noc2 hs] at h2
          cases h2
        rw [hsame hw hs, if_pos rfl, if_pos (show s.fetchState = .normal from hn)]
    | false =>
        have hw' := hw
        rw [fetchStateNext_of_not_acceptS1 ha] at hw'
        rw [hsame hw (by rw [preS1_source, hw']; rfl)]
        simp [secondS1, hw']
  · rw [secondS1_of_noc2 hf hw]
    cases ha : s.acceptS1 cfg i with
    | true =>
        rw [fetchStateNext_of_acceptS1 ha] at hw
        rw [if_pos rfl]
        split
        · rename_i hn
          refine (hf _ ?_).symm
          by_contra h2
          have hn' : (s.decoderInS1 cfg).fetchState = .normal := hn
          exact hw (by simp only [FetchState.next, hn', if_pos (by simpa using h2)])
        · rfl
    | false =>
        rw [fetchStateNext_of_not_acceptS1 ha] at hw
        simp [secondS1_of_noc2 hf hw]

theorem claimedSlots_step (hp : Piped cfg s) (hh : Held cfg s) (hi : ¬ Ignored cfg s i)
    (hq : s.noc1Staled = true → s.mispredictedS3 cfg = false)
    (honce : s.mispredictedS3 cfg = true → s.stallS3 cfg i = false) :
    (s.step cfg i).claimedSlots cfg + (if s.noc1bufferReqVal cfg then 1 else 0) +
      (if s.mispredictedS3 cfg then 1 else 0) = s.claimedSlots cfg + s.slotsTaken cfg i := by
  have hc := claimed_step (i := i) (fun _ => 1) hp.beats hp.marked hq honce
  have h2 := secondS1_step hh hi (fun d => DecoderIn.secondPassSlots_of_not_twoPass (d := d))
    (fun d d' hr hv => by simp only [DecoderIn.secondPassSlots, hr, hv])
  have hacc : (if s.acceptS1 cfg i && (s.ctlS1 cfg).noc1Op != .none then 1 else 0) =
      if s.acceptS1 cfg i then (s.ctlS1 cfg).slots else 0 := by
    cases s.acceptS1 cfg i <;> by_cases hn : (s.ctlS1 cfg).noc1Op = .none <;> simp [Ctl.slots, hn]
  simp only [claimedSlots, slotsTaken]
  rw [hacc] at hc
  rw [h2]
  cases ha : s.acceptS1 cfg i with
  | false => simp only [ha, Bool.false_eq_true, if_false] at hc ⊢; omega
  | true =>
      simp only [ha, if_true] at hc ⊢
      by_cases hn : s.fetchState = .normal
      · have := decoder_slots_normal cfg (s.decoderInS1 cfg) hn
        simp only [secondS1, hn, if_true, ctlS1] at hc this ⊢
        omega
      · have := decoder_slots_second cfg (s.decoderInS1 cfg) hn
        simp only [secondS1, hn, if_false, ctlS1] at hc this ⊢
        omega

theorem noc1TypeS3_dataWords : (s.noc1TypeS3 cfg).dataWords = (s.s3.ctl cfg).noc1Op.dataWords := by
  simp only [noc1TypeS3]
  by_cases ht : s.s3.tagcheckState = .s <;> cases (s.s3.ctl cfg).noc1Op <;>
    simp [ht, Noc1Reqtype.dataWords, Noc1Op.dataWords]

theorem claimedWords_step (hp : Piped cfg s) (hh : Held cfg s) (hi : ¬ Ignored cfg s i)
    (hq : s.noc1Staled = true → s.mispredictedS3 cfg = false)
    (honce : s.mispredictedS3 cfg = true → s.stallS3 cfg i = false) :
    (s.step cfg i).claimedWords cfg + (if s.noc1bufferReqVal cfg then (s.noc1TypeS3 cfg).dataWords else 0) =
      s.claimedWords cfg + s.wordsTaken cfg i := by
  have hc := claimed_step (i := i) Noc1Op.dataWords hp.beats hp.marked hq honce
  have h2 := secondS1_step hh hi (fun d => DecoderIn.secondPassWords_of_not_twoPass (d := d))
    (fun d d' hr hv => by simp only [DecoderIn.secondPassWords, hr, hv])
  have hacc : (if s.acceptS1 cfg i && (s.ctlS1 cfg).noc1Op != .none then (s.ctlS1 cfg).noc1Op.dataWords else 0) =
      if s.acceptS1 cfg i then (s.ctlS1 cfg).noc1Op.dataWords else 0 := by
    cases s.acceptS1 cfg i <;> by_cases hn : (s.ctlS1 cfg).noc1Op = .none <;> simp [hn, Noc1Op.dataWords]
  have hmis : (if s.mispredictedS3 cfg then (s.s3.ctl cfg).noc1Op.dataWords else 0) = 0 := by
    cases hm : s.mispredictedS3 cfg with
    | false => rfl
    | true =>
        simp only [mispredictedS3] at hm
        cases hop : (s.s3.ctl cfg).noc1Op <;> simp_all [Noc1Op.dataWords]
  simp only [claimedWords, wordsTaken, noc1TypeS3_dataWords]
  rw [hacc, hmis] at hc
  rw [h2]
  cases ha : s.acceptS1 cfg i with
  | false => simp only [ha, Bool.false_eq_true, if_false] at hc ⊢; omega
  | true =>
      simp only [ha, if_true] at hc ⊢
      by_cases hn : s.fetchState = .normal
      · have := decoder_words_normal cfg (s.decoderInS1 cfg) hn
        simp only [secondS1, hn, if_true, ctlS1] at hc this ⊢
        omega
      · have := decoder_words_second cfg (s.decoderInS1 cfg) hn
        simp only [secondS1, hn, if_false, ctlS1] at hc this ⊢
        omega

/-! ## Room -/

theorem noc1Unavail_room {c : Creditman} {ctl : Ctl} (h : noc1CommandUnavail c ctl = false) (ha : c.avail ≤ 15)
    (hr : c.reserve ≤ 15) (hn : ctl.creditmanNoc1Needed ≤ 2) :
    ctl.creditmanNoc1Needed = 0 ∨ ctl.creditmanNoc1Needed + c.reserve ≤ c.avail := by
  simp only [noc1CommandUnavail, noc1Unavail2, noc1Unavail1, Bool.or_eq_false_iff, Bool.and_eq_false_imp,
    beq_iff_eq, beq_eq_false_iff_ne] at h
  obtain ⟨h1, h2⟩ := h
  rcases (by omega : ctl.creditmanNoc1Needed = 0 ∨ ctl.creditmanNoc1Needed = 1 ∨ ctl.creditmanNoc1Needed = 2)
    with hc | hc | hc
  · exact .inl hc
  · have := h1 hc
    omega
  · have := h2 hc
    omega

theorem noc1DataUnavail_room {c : Creditman} {ctl : Ctl} (h : noc1DataUnavail c ctl = false) :
    ctl.wordsClaimed ≤ c.dataAvail := by
  simp only [noc1DataUnavail] at h
  simp only [Ctl.wordsClaimed]
  split_ifs at h ⊢ <;> simp at h <;> omega

/-- A line flush takes its slot in its second pass, where nothing checks for room. -/
def flushesS1 (cfg : Config) (s : State) (i : Input) : Bool :=
  s.acceptS1 cfg i && (s.preS1 cfg).reqtype == .lineFlush && s.fetchState == .pcxWritebackDone

/-- What S1 takes, it takes above what the outstanding fills need, unless it takes it for one. -/
theorem slotsTaken_room {outstanding : Nat} (hh : Held cfg s) (hi : ¬ Ignored cfg s i)
    (ha : s.credit.avail ≤ 15) (hr : s.credit.reserve ≤ 15) (ho : outstanding ≤ s.credit.reserve)
    (hroom : outstanding ≤ s.credit.avail) (hflush : s.flushesS1 cfg i = true → outstanding < s.credit.avail) :
    s.slotsTaken cfg i + outstanding ≤
      s.credit.avail + if s.acceptS1 cfg i && (s.ctlS1 cfg).creditmanNoc1Unreserve then 1 else 0 := by
  simp only [slotsTaken]
  cases hacc : s.acceptS1 cfg i with
  | false => simpa using hroom
  | true =>
      simp only [if_true, Bool.true_and]
      rcases source_of_acceptS1 hacc with hs | hs
      · rcases source?_pcx (preS1_source.symm.trans hs) with ⟨hn, _⟩ | hw
        · have hst := noc1Space_of_acceptS1 hacc
          simp only [stallPcxNoc1BufferS1, hs, hn, beq_self_eq_true, Bool.and_true, Bool.or_eq_false_iff] at hst
          rcases noc1Unavail_room hst.1 ha hr needed_le with h | h <;> omega
        · have hsec := decoder_slots_second cfg (s.decoderInS1 cfg) (by simp [hw])
          have h2 : FetchState.isTwoPass (s.decoderInS1 cfg).reqtype (s.decoderInS1 cfg).intVecDis = true :=
            (pcxTwoPass_eq hs).trans (hh.second hw).2
          have hle : (s.ctlS1 cfg).slots ≤ 1 := by simp only [Ctl.slots]; split_ifs <;> omega
          by_cases hl : (s.preS1 cfg).reqtype = .lineFlush
          · have := hflush (by simp [flushesS1, hacc, hl, hw])
            simp only [ctlS1] at hle hsec ⊢
            omega
          · have h1 : (s.decoderInS1 cfg).secondPassSlots = 1 := by
              rw [DecoderIn.secondPassSlots, h2]
              exact if_pos (by simpa [decoderInS1_reqtype] using hl)
            simp only [ctlS1] at hle hsec ⊢
            omega
      · have hd := (decoder_noc2 cfg _ (fromNoc2_of_acceptS1 hacc hs hi)).2.2
        simp only [Bool.or_eq_true, Bool.and_eq_true, beq_iff_eq] at hd
        rcases hd with ⟨hn, hu⟩ | hn
        · simp only [ctlS1, hn, hu, if_true]
          omega
        · simp only [ctlS1, hn]
          omega

theorem wordsTaken_room (hh : Held cfg s) (hi : ¬ Ignored cfg s i) :
    s.wordsTaken cfg i ≤ s.credit.dataAvail := by
  simp only [wordsTaken]
  cases hacc : s.acceptS1 cfg i with
  | false => simp
  | true =>
      simp only [if_true]
      rcases source_of_acceptS1 hacc with hs | hs
      · rcases source?_pcx (preS1_source.symm.trans hs) with ⟨hn, _⟩ | hw
        · have hst := noc1Space_of_acceptS1 hacc
          simp only [stallPcxNoc1BufferS1, hs, hn, beq_self_eq_true, Bool.and_true, Bool.or_eq_false_iff] at hst
          exact noc1DataUnavail_room hst.2
        · have h2 : FetchState.isTwoPass (s.decoderInS1 cfg).reqtype (s.decoderInS1 cfg).intVecDis = true :=
            (pcxTwoPass_eq hs).trans (hh.second hw).2
          rw [ctlS1, wordsClaimed_second cfg _ (by simp [hw]) h2]
          exact Nat.zero_le _
      · rw [ctlS1, (decoder_noc2 cfg _ (fromNoc2_of_acceptS1 hacc hs hi)).2.1]
        exact Nat.zero_le _

end State

end OpenPiton.L15
