import OpenPiton.L15.Credit

namespace OpenPiton.L15

/-- The L1.5 with the number of its requests that the L2 has and will answer with a fill. -/
structure Tracked where
  l15 : State
  outstanding : Nat

namespace Tracked

variable (cfg : Config)

def sentFill (t : Tracked) (i : Input) : Bool := t.l15.noc1Sent i && t.l15.noc1.head.fills

/-- A fill, or the acknowledgement of an upgrade, is accepted. -/
def filled (t : Tracked) (i : Input) : Bool := t.l15.acceptS1 cfg i && (t.l15.ctlS1 cfg).creditmanNoc1Unreserve

def step (t : Tracked) (i : Input) : Tracked where
  l15 := t.l15.step cfg i
  outstanding := t.outstanding + (if t.sentFill i then 1 else 0) - if t.filled cfg i then 1 else 0

def Init (t : Tracked) : Prop := t.l15.Init ∧ t.outstanding = 0

/-- The L2 sends data to MSHRs that wait for it, and a fill for each request at most. -/
structure Answered (t : Tracked) (i : Input) : Prop where
  known : ¬ State.Ignored cfg t.l15 i
  answered : t.filled cfg i = true → 0 < t.outstanding

instance (t : Tracked) (i : Input) : Decidable (Answered cfg t i) :=
  decidable_of_iff (¬ State.Ignored cfg t.l15 i ∧ (t.filled cfg i = true → 0 < t.outstanding))
    ⟨fun ⟨a, b⟩ => ⟨a, b⟩, fun ⟨a, b⟩ => ⟨a, b⟩⟩

/-- No request is refunded in a cycle in which S3 stalls, and a line flush takes its slot while more
slots are free than fills are outstanding. -/
structure Allowed (t : Tracked) (i : Input) : Prop extends Answered cfg t i where
  once : t.l15.mispredictedS3 cfg = true → t.l15.stallS3 cfg i = false
  flush : t.l15.flushesS1 cfg i = true → t.outstanding < t.l15.credit.avail

instance (t : Tracked) (i : Input) : Decidable (Allowed cfg t i) :=
  decidable_of_iff (Answered cfg t i ∧ (t.l15.mispredictedS3 cfg = true → t.l15.stallS3 cfg i = false) ∧
    (t.l15.flushesS1 cfg i = true → t.outstanding < t.l15.credit.avail))
    ⟨fun ⟨a, b, c⟩ => ⟨a, b, c⟩, fun ⟨a, b, c⟩ => ⟨a, b, c⟩⟩

end Tracked

/-- The slots and words counted free, held and claimed are all there are. -/
structure CreditConserved (cfg : Config) (s : State) : Prop where
  slots : s.credit.avail + s.noc1.held + s.claimedSlots cfg = noc1BufferNumSlots
  words : s.credit.dataAvail + s.noc1.heldWords + s.claimedWords cfg = noc1BufferNumDataSlots

instance (cfg : Config) (s : State) : Decidable (CreditConserved cfg s) :=
  decidable_of_iff (s.credit.avail + s.noc1.held + s.claimedSlots cfg = noc1BufferNumSlots ∧
    s.credit.dataAvail + s.noc1.heldWords + s.claimedWords cfg = noc1BufferNumDataSlots)
    ⟨fun ⟨a, b⟩ => ⟨a, b⟩, fun ⟨a, b⟩ => ⟨a, b⟩⟩

/-- What a clock keeps: the counters count without wrapping, the buffer is written into a free slot
and over no word of a command it holds, and a fill finds a slot. -/
structure CreditKept (cfg : Config) (s : State) (i : Input) : Prop where
  avail : (s.step cfg i).credit.avail + s.slotsTaken cfg i = s.credit.avail + s.slotsAdded cfg i
  dataAvail : (s.step cfg i).credit.dataAvail + s.wordsTaken cfg i = s.credit.dataAvail + s.noc1DataSent i
  notFull : s.noc1bufferReqVal cfg = true → s.noc1.commandVal s.noc1.commandWrindex = false
  data : ∀ k < noc1BufferNumSlots, s.noc1.commandVal k = true → ∀ j < (s.noc1.command k).reqtype.dataWords,
    (s.step cfg i).noc1.data (((s.noc1.command k).dataIndex + j) % noc1BufferNumDataSlots) =
      s.noc1.data (((s.noc1.command k).dataIndex + j) % noc1BufferNumDataSlots)
  fill : s.acceptS1 cfg i = true → (s.preS1 cfg).source = .noc2 → (s.ctlS1 cfg).noc1Op ≠ .none →
    1 ≤ s.credit.avail

namespace Tracked

variable {cfg : Config} {t : Tracked} {i : Input}

/-- The invariant of the credits, for the queue `l` the buffer holds. -/
structure Credited (cfg : Config) (t : Tracked) (l : List Noc1Command) : Prop where
  queue : t.l15.noc1.Queue l
  slots : t.l15.credit.avail + l.length + t.l15.claimedSlots cfg = noc1BufferNumSlots
  words : t.l15.credit.dataAvail + Noc1Buffer.queueWords l + t.l15.claimedWords cfg = noc1BufferNumDataSlots
  reserve : t.l15.credit.reserve = (l.map fun c => if c.fills then 1 else 0).sum + t.outstanding
  room : t.outstanding ≤ t.l15.credit.avail

/-- The invariants of the pipeline the credits rest on. -/
structure Sound (cfg : Config) (s : State) : Prop where
  held : State.Held cfg s
  piped : State.Piped cfg s
  nc : State.NcKept s
  /-- A request that has stalled in S3 was not refunded and reserves nothing. -/
  quiet : s.noc1Staled = true → s.mispredictedS3 cfg = false ∧ s.reserveS3 cfg = false

theorem Sound.step {s : State} (h : Sound cfg s) (hi : ¬ State.Ignored cfg s i)
    (honce : s.mispredictedS3 cfg = true → s.stallS3 cfg i = false) : Sound cfg (s.step cfg i) where
  held := h.held.step hi
  piped := h.piped.step
  nc := h.nc.step
  quiet hst := by
    rw [State.noc1Staled_step] at hst
    have h3 : (s.step cfg i).s3 = s.s3 := State.s3Next_of_stall hst
    rw [State.mispredictedS3_congr h3]
    constructor
    · by_contra hm
      simp [honce (by simpa using hm)] at hst
    · by_contra hr
      have hr' : s.reserveS3 cfg = true := by
        simpa only [State.reserveS3, State.noc1ReqValS3, h3, Bool.not_eq_false] using hr
      simp [State.stallS3_of_reserve hr'] at hst

theorem Init.sound (h : t.Init) : Sound cfg t.l15 where
  held := h.1.held
  piped := h.1.piped
  nc := by constructor <;> constructor <;> simp [h.1.s2, h.1.s3]
  quiet hst := by simp [h.1.noc1Staled] at hst

theorem Init.credited (h : t.Init) : Credited cfg t [] := by
  obtain ⟨h, ho⟩ := h
  have hs : t.l15.claimedSlots cfg = 0 := by
    simp [State.claimedSlots, State.secondS1, State.claimed, State.openS2, State.openS3, h.fetchState, h.s2, h.s3]
  have hw : t.l15.claimedWords cfg = 0 := by
    simp [State.claimedWords, State.secondS1, State.claimed, State.openS2, State.openS3, h.fetchState, h.s2, h.s3]
  refine ⟨by rw [h.noc1]; exact Noc1Buffer.Queue.init, ?_, ?_, ?_, ?_⟩
  · simp [h.credit, hs]
  · simp [h.credit, hw]
  · simp [h.credit, ho]
  · simp [ho]

section Step

variable {l : List Noc1Command}

theorem claimed_of_write {s : State} (h : s.noc1bufferReqVal cfg = true) (w : Noc1Op → Nat) :
    w (s.s3.ctl cfg).noc1Op ≤ s.claimed cfg w := by
  rw [State.noc1bufferReqVal_eq] at h
  simp only [Bool.and_eq_true, Bool.not_eq_true'] at h
  obtain ⟨⟨⟨hv, hr⟩, hst⟩, -⟩ := h
  have ho : s.openS3 cfg = true := by
    simp [State.openS3, hv, hr, hst, bne_iff_ne.mp (State.noc1Op_of_reqVal hr)]
  rw [State.claimed, ho, if_pos rfl]
  exact Nat.le_add_left _ _

theorem Credited.slot_of_write (hc : Credited cfg t l) (h : t.l15.noc1bufferReqVal cfg = true) :
    l.length < noc1BufferNumSlots := by
  have h1 := claimed_of_write h fun _ => 1
  have := hc.slots
  simp only [State.claimedSlots] at this
  omega

theorem Credited.words_of_write (hc : Credited cfg t l) (h : t.l15.noc1bufferReqVal cfg = true) :
    Noc1Buffer.queueWords l + (t.l15.noc1TypeS3 cfg).dataWords ≤ noc1BufferNumDataSlots := by
  have h1 := claimed_of_write h Noc1Op.dataWords
  have := hc.words
  simp only [State.claimedWords] at this
  rw [State.noc1TypeS3_dataWords]
  omega

theorem Credited.sent (hc : Credited cfg t l) : t.l15.noc1Sent i = true → l ≠ [] := by
  intro h
  simp only [State.noc1Sent, Bool.and_eq_true] at h
  exact hc.queue.reqVal_iff.mp h.2

theorem sum_fills_le (l : List Noc1Command) : (l.map fun c => if c.fills then 1 else 0).sum ≤ l.length := by
  induction l with
  | nil => simp
  | cons c l ih =>
      simp only [List.map_cons, List.sum_cons, List.length_cons]
      split <;> omega

theorem Credited.reserve_le (hc : Credited cfg t l) :
    t.l15.credit.avail ≤ noc1BufferNumSlots ∧ t.l15.credit.reserve ≤ noc1BufferNumSlots := by
  have hf := sum_fills_le l
  have := hc.slots
  have := hc.reserve
  have := hc.room
  constructor <;> omega

theorem req_weight (s : State) (f : Noc1Command → Nat) (g : Noc1Reqtype → Bool → Nat)
    (hf : ∀ c : Noc1Command, f c = g c.reqtype c.nonCacheable) :
    ((s.noc1bufferReq cfg).map fun r => f (s.noc1.commandOf r)).getD 0 =
      if s.noc1bufferReqVal cfg then g (s.noc1TypeS3 cfg) s.s3.nonCacheable else 0 := by
  simp only [State.noc1bufferReq]
  split
  · simp [hf, Noc1Buffer.commandOf]
  · simp

theorem Credited.kept (hs : Sound cfg t.l15) (hc : Credited cfg t l) (ha : Allowed cfg t i) :
    CreditKept cfg t.l15 i := by
  obtain ⟨hav, hre⟩ := hc.reserve_le
  simp only [noc1BufferNumSlots] at hav hre
  have hroom := State.slotsTaken_room (i := i) hs.held ha.known (by omega) (by omega)
    (by have := hc.reserve; omega) hc.room ha.flush
  have hwroom := State.wordsTaken_room hs.held ha.known
  have hun : (t.l15.acceptS1 cfg i && (t.l15.ctlS1 cfg).creditmanNoc1Unreserve) = true → 0 < t.outstanding :=
    ha.answered
  have hadd : t.l15.slotsAdded cfg i ≤ 2 := by simp only [State.slotsAdded]; split_ifs <;> omega
  have hsent : t.l15.noc1DataSent i ≤ 2 := by
    simp only [State.noc1DataSent]
    split_ifs <;> simp [State.dataWords_le]
  have htake : t.l15.slotsTaken cfg i ≤ t.l15.credit.avail := by
    have := hc.room
    split_ifs at hroom with hu
    · have := hun hu
      omega
    · omega
  have hdata := hc.words
  simp only [noc1BufferNumDataSlots] at hdata
  refine ⟨State.creditmanNext_avail (by omega) (by omega), State.creditmanNext_dataAvail (by omega) (by omega),
    fun hw => hc.queue.ring.val_wr (hc.slot_of_write hw), fun k hk hv j hj => ?_, fun hacc hsrc hop => ?_⟩
  · have hmem := hc.queue.ring.mem hk hv
    rw [State.step_noc1]
    cases hr : t.l15.noc1bufferReq cfg with
    | none => cases t.l15.noc1Sent i <;> rfl
    | some r =>
        have hval : t.l15.noc1bufferReqVal cfg = true := by rw [← State.noc1bufferReq_isSome, hr]; rfl
        have hty : r.reqtype = t.l15.noc1TypeS3 cfg := by
          simp only [State.noc1bufferReq, hval, if_true, Option.some.injEq] at hr
          rw [← hr]
        have hw := hc.words_of_write hval
        rw [← hty] at hw
        have := hc.queue.writeData_of_held hw hmem hj
        cases t.l15.noc1Sent i <;> exact this
  · have hd := (decoder_noc2 cfg _ (State.fromNoc2_of_acceptS1 hacc hsrc ha.known)).2.2
    simp only [Bool.or_eq_true, Bool.and_eq_true, beq_iff_eq] at hd
    rcases hd with ⟨_, hu⟩ | hn
    · have := hun (by rw [hacc]; exact hu)
      have := hc.room
      omega
    · have hz : (decoder cfg (t.l15.decoderInS1 cfg)).slots = 0 := by
        by_cases hf : (t.l15.decoderInS1 cfg).fetchState = .normal
        · have := decoder_slots_normal cfg _ hf
          omega
        · have := decoder_slots_second cfg _ hf
          have h2 := DecoderIn.secondPassSlots_of_not_twoPass (State.isTwoPass_of_noc2 hsrc (t.l15.decoderInS1 cfg).intVecDis)
          omega
      simp only [Ctl.slots] at hz
      split_ifs at hz with hno
      exact absurd hno hop

theorem sum_map_one (l : List Noc1Command) : (l.map fun _ => 1).sum = l.length := by
  simp

theorem ite_ite_and {a b : Bool} : (if a then if b then 1 else 0 else 0) = if a && b then 1 else 0 := by
  cases a <;> simp

theorem Credited.sum_next (hc : Credited cfg t l) (i : Input) (f : Noc1Command → Nat) (g : Noc1Reqtype → Bool → Nat)
    (hf : ∀ c : Noc1Command, f c = g c.reqtype c.nonCacheable) :
    ((t.l15.noc1.queueNext l (t.l15.noc1bufferReq cfg) (t.l15.noc1Sent i)).map f).sum +
        (if t.l15.noc1Sent i then f t.l15.noc1.head else 0) =
      (l.map f).sum + if t.l15.noc1bufferReqVal cfg then g (t.l15.noc1TypeS3 cfg) t.l15.s3.nonCacheable else 0 := by
  rw [Noc1Buffer.sum_queueNext hc.queue hc.sent f, req_weight t.l15 f g hf]

theorem Credited.step (hs : Sound cfg t.l15) (hc : Credited cfg t l) (ha : Allowed cfg t i) :
    Credited cfg (t.step cfg i)
      (t.l15.noc1.queueNext l (t.l15.noc1bufferReq cfg) (t.l15.noc1Sent i)) := by
  have hk := hc.kept hs ha
  have hq0 := fun h => (hs.quiet h).1
  have hS := State.claimedSlots_step hs.piped hs.held ha.known hq0 ha.once
  have hW := State.claimedWords_step hs.piped hs.held ha.known hq0 ha.once
  have hR := State.reserveS3_iff hs.piped.marked hs.nc.2 fun h => (hs.quiet h).2
  obtain ⟨hav, hre⟩ := hc.reserve_le
  simp only [noc1BufferNumSlots] at hav hre
  have hroom := State.slotsTaken_room (i := i) hs.held ha.known (by omega) (by omega)
    (by have := hc.reserve; omega) hc.room ha.flush
  have hlen := hc.sum_next i (fun _ => 1) (fun _ _ => 1) fun _ => rfl
  have hwords := hc.sum_next i (fun c => c.reqtype.dataWords) (fun r _ => r.dataWords) fun _ => rfl
  have hfills := hc.sum_next i (fun c => if c.fills then 1 else 0) (fun r nc => if r.fills nc then 1 else 0) fun _ => rfl
  have hres : (t.l15.creditmanNext cfg i).reserve + _ = _ := State.creditmanNext_reserve (by omega)
    fun hu => by have := ha.answered hu; have := hc.reserve; omega
  have hup : (if t.l15.noc1bufferReqVal cfg then
      if (t.l15.noc1TypeS3 cfg).fills t.l15.s3.nonCacheable then 1 else 0 else 0) =
      if t.l15.reserveS3 cfg then 1 else 0 := by
    rw [hR, ite_ite_and]
  have hsf : (if t.l15.noc1Sent i then if t.l15.noc1.head.fills then 1 else 0 else 0) =
      if t.sentFill i then 1 else 0 := ite_ite_and
  have hun : (if t.filled cfg i then 1 else 0) ≤ t.outstanding := by
    split_ifs with hu
    · exact ha.answered hu
    · exact Nat.zero_le _
  have hslots := hc.slots
  have hcw := hc.words
  have hcr := hc.reserve
  have hcroom := hc.room
  have hka := hk.avail
  have hkd := hk.dataAvail
  have hle : (if t.sentFill i then 1 else 0) ≤ if t.l15.noc1Sent i then 1 else 0 := by
    split_ifs with h1 h2
    · exact Nat.le_refl _
    · simp [sentFill, h2] at h1
    · exact Nat.zero_le _
    · exact Nat.le_refl _
  rw [hup, hsf] at hfills
  simp only [sum_map_one] at hlen
  simp only [State.slotsAdded, State.noc1DataSent] at hka hkd
  change _ + (if t.filled cfg i then 1 else 0) = _ at hres
  change _ ≤ _ + (if t.filled cfg i then 1 else 0) at hroom
  refine ⟨hc.queue.step hc.sent fun hr => hc.slot_of_write (by rwa [State.noc1bufferReq_isSome] at hr), ?_, ?_, ?_, ?_⟩
  · simp only [Tracked.step, State.step_credit] at hka ⊢
    omega
  · simp only [Tracked.step, State.step_credit, Noc1Buffer.queueWords] at hcw hkd ⊢
    omega
  · simp only [Tracked.step, State.step_credit]
    omega
  · simp only [Tracked.step, State.step_credit] at hka ⊢
    omega

end Step

theorem Reaches.credited (h : Machine.Reaches Init (step cfg) (Allowed cfg) t) :
    Sound cfg t.l15 ∧ ∃ l, Credited cfg t l := by
  refine h.invariant (P := fun t => Sound cfg t.l15 ∧ ∃ l, Credited cfg t l)
    (fun t ht => ⟨ht.sound, [], ht.credited⟩) fun t i ⟨hs, l, hc⟩ ha => ?_
  exact ⟨hs.step ha.known ha.once, _, hc.step hs ha⟩

/-- Along every run in which S3 does not stall on a refund and no line flush takes the last slot
that a fill needs, the credits are conserved, nothing is overwritten and fills find a slot. -/
theorem credit_conservation (h : Machine.Reaches Init (step cfg) (Allowed cfg) t) :
    CreditConserved cfg t.l15 ∧ ∀ i, Allowed cfg t i → CreditKept cfg t.l15 i := by
  obtain ⟨hs, l, hc⟩ := Reaches.credited h
  refine ⟨⟨?_, ?_⟩, fun i ha => hc.kept hs ha⟩
  · rw [hc.queue.held_eq]
    exact hc.slots
  · rw [hc.queue.heldWords_eq]
    exact hc.words

def reset : Tracked := ⟨State.reset, 0⟩

theorem init_reset : reset.Init := ⟨State.init_reset, rfl⟩

/-- A load that misses, its fill, and the same load again. -/
def loadTwice : List Input :=
  let load : PcxReq := { rqtype := .load, address := 0x1000 }
  let fill : Noc2Msg := { reqtype := .dataAck, mshrType := .ld, ackState := .e, data := [1, 2] }
  [{ pcx := some load }, {}, {}, {}, {}, { noc2 := some fill }, {}, {}, {}, {}, {}, { pcx := some load }, {}, {}]

theorem credit_conservation_loadTwice :
    CreditConserved .default (Machine.run (step .default) reset loadTwice).l15 :=
  (credit_conservation ((Machine.Reaches.start init_reset).run (by decide +kernel))).1

/-- Eight threads fill the NoC1 buffer, which sends nothing, with cache operations; then a line is
flushed. -/
def flushFull : List Input :=
  let clean (thread : Nat) : PcxReq := { rqtype := .cmo (some .clean), address := thread * 64, threadid := thread }
  let flush : PcxReq := { rqtype := .store, address := 0xb300000000 }
  (((List.range 8).map clean ++ [flush]).map fun r => { pcx := some r, noc1Ack := false }) ++
    List.replicate 2 { noc1Ack := false }

def loadDelayed : List Input := loadTwice ++ ([{ cpxAck := false }, { cpxAck := false }, {}] : List Input)

def eightThreads : Config := { Config.default with threads := 8, threads_pos := by decide }

/-- With the response to the second load delayed by two cycles, its slot is given back three times;
and a flush in a full buffer takes the counter from 0 to 15. -/
theorem credit_not_conserved :
    (Machine.Meets (step .default) (Answered .default) reset loadDelayed ∧
      (Machine.run (step .default) reset loadDelayed).l15.credit.avail = 10 ∧
      ¬ CreditConserved .default (Machine.run (step .default) reset loadDelayed).l15) ∧
    Machine.Meets (step eightThreads) (Answered eightThreads) reset flushFull ∧
      (Machine.run (step eightThreads) reset flushFull).l15.credit.avail = 15 ∧
      ¬ CreditConserved eightThreads (Machine.run (step eightThreads) reset flushFull).l15 := by
  decide +kernel

end Tracked

end OpenPiton.L15
