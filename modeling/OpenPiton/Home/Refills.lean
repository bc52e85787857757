import OpenPiton.Lib.Machine
import OpenPiton.Home.Answers

namespace OpenPiton.Home

open L15

/-- A request that misses in the home map cache, with its address there. -/
structure Miss where
  ticket : Nat := 0
  address : Nat := 0
  deriving DecidableEq, Repr

/-- The load a miss asks for. -/
def Miss.load (csm : CsmConfig) (m : Miss) : RefillReq := ⟨csm.tableAddress m.address, m.ticket, true⟩

/-- A line of the home map table as it is written for a miss. -/
structure Fill where
  miss : Miss
  line : HmtLine

/-- The L1.5 with the refills of its home map cache. -/
structure Refills where
  node : Node
  /-- S3 took its request at the last clock. -/
  fresh : Bool := true
  misses : List Miss := []
  loads : List RefillReq := []
  /-- The misses whose loads are sent and not answered. -/
  outstanding : List Miss := []
  /-- The misses whose answers have come in, in the order of the answers. -/
  answered : List Miss := []
  /-- What is written to the tickets, in S2. -/
  fills : List Fill := []
  /-- What is written to the home map cache, in S3. -/
  stores : List Fill := []

/-- `answers` is the miss whose load an answer belongs to. -/
structure RefillsInput where
  node : NodeInput := {}
  answers : Miss := {}
  deriving DecidableEq, Repr

namespace Refills

variable (cfg : Config) (csm : CsmConfig) (s : Refills) (i : RefillsInput)

def gated : Input := s.node.gated csm i.node

def csmReqS2 : CsmReq := s.node.csmReqS2 cfg csm (s.gated csm i)

/-- The request of S3 as a miss. -/
def missS3 : Miss := ⟨s.node.csm.s3.ticket, s.node.csm.s3.addrIn⟩

def missed : List Miss := if s.fresh && s.node.csm.refillReqVal csm then [s.missS3] else []

/-- The miss whose load the encoder takes. -/
def sent : List Miss := if s.node.csmSent i.node then (s.misses.drop s.loads.length).take 1 else []

/-- The answer to a refill comes in. -/
def answer? : Option Noc2Msg :=
  if s.node.l15.noc2State = .idle then i.node.l15.noc2.filter isRefill else none

def answers : List Miss := if (s.answer? i).isSome then [i.answers] else []

def filled : List Fill :=
  let r := s.csmReqS2 cfg csm i
  if r.writeVal then [⟨⟨r.ticket, s.node.csm.addrInNext csm r⟩, r.data⟩] else []

def storing : List Fill :=
  if s.node.csm.s3.wrEn && !s.node.csm.s3.diagEn then [⟨s.missS3, s.node.csm.s3.dataIn⟩] else []

/-- The misses that are not filled yet: those in the queue, those on the network and those before
the pipeline. -/
def underway : List Miss :=
  s.misses.drop s.loads.length ++ s.outstanding ++ s.answered.drop s.fills.length

def step : Refills where
  node := s.node.step cfg csm i.node
  fresh := !s.node.l15.stallS3 cfg (s.gated csm i)
  misses := s.misses ++ s.missed csm
  loads := if s.node.csmSent i.node then s.loads ++ [s.node.csm.req] else s.loads
  outstanding := s.outstanding.diff (s.answers i) ++ s.sent i
  answered := s.answered ++ s.answers i
  fills := s.fills ++ s.filled cfg csm i
  stores := s.stores ++ s.storing

/-- Memory answers a load under way with its MSHR id. -/
def Answers : Prop := ∀ m ∈ s.answer? i, i.answers ∈ s.outstanding ∧ csmMshrid m = i.answers.ticket

instance : Decidable (s.Answers i) := by unfold Answers; infer_instance

/-- No request misses while the refill of an earlier one with the same ticket is under way. -/
def TicketFree : Prop :=
  s.node.csm.refillReqVal csm = true → ∀ m ∈ s.underway, m.ticket ≠ s.node.csm.s3.ticket

instance : Decidable (s.TicketFree csm) := by unfold TicketFree; infer_instance

structure Init : Prop where
  node : Node.Init s.node
  fresh : s.fresh = true
  misses : s.misses = []
  loads : s.loads = []
  outstanding : s.outstanding = []
  answered : s.answered = []
  fills : s.fills = []
  stores : s.stores = []

def reset : Refills where
  node := Node.reset

theorem init_reset : Init reset := ⟨Node.init_reset, rfl, rfl, rfl, rfl, rfl, rfl, rfl⟩

/-- What a fill leaves behind in the cycle after it: the home under its ticket, and its line on the
way to the home map cache. -/
structure Written (c : Csm) (f : Fill) : Prop where
  home : c.ghid f.miss.ticket = .ofBits (wordData (f.line (hmcOffset f.miss.address)))
  valid : c.ghidVal f.miss.ticket = wordValid (f.line (hmcOffset f.miss.address))
  cache : (c.hmc.step c.hmcIn).Holds f.miss.address f.line

/-- Every miss has one load and every answer goes to the miss it belongs to. -/
structure Disciplined : Prop where
  loads : ∃ q, s.node.csm.refills.Holds csmNumTickets q ∧ s.loads ++ q = s.misses.map (Miss.load csm)
  counter : s.node.csm.refills.counter ≤ csmNumTickets
  sent : (s.answered ++ s.outstanding).Perm (s.misses.take s.loads.length)
  fills : ∃ rest, rest.length ≤ 1 ∧ s.fills.map Fill.miss ++ rest = s.answered
  stores : s.stores ++ s.storing = s.fills
  written : ∀ f ∈ s.storing, Written s.node.csm f

/-! ## What a run keeps -/

/-- The queue and its loads. -/
structure Queued : Prop where
  queue : ∃ q, s.node.csm.refills.Holds csmNumTickets q ∧ s.loads ++ q = s.misses.map (Miss.load csm)
  sent : (s.answered ++ s.outstanding).Perm (s.misses.take s.loads.length)

/-- The tickets of the misses under way. -/
structure Ticketed : Prop where
  lt : ∀ m ∈ s.underway, m.ticket < csmNumTickets
  nodup : (s.underway.map Miss.ticket).Nodup
  address : ∀ m ∈ s.underway, s.node.csm.ghidAddr m.ticket = m.address

/-- The miss whose answer is before the pipeline, if any. -/
def Pending : Prop :=
  ¬ AnswerWaits s.node.l15 ∧ s.fills.map Fill.miss = s.answered ∨
    ∃ m, AnswerWaits s.node.l15 ∧ s.fills.map Fill.miss ++ [m] = s.answered ∧ csmMshrid s.node.l15.noc2 = m.ticket

/-- What the run keeps in the pipeline. -/
structure Coupled : Prop where
  piped : State.Piped cfg s.node.l15
  awaited : State.Awaited cfg s.node.l15
  tagged : Tagged cfg s.node.l15
  node : Node.Coupled cfg s.node
  fresh : s.fresh = false → s.node.csm.s3.rdEn = true → s.node.csm.s3.diagEn = true ∨ s.node.csm.s3.flushEn = true
  ticket : s.node.csm.s3.ticket < csmNumTickets

variable {cfg csm s i}

theorem Coupled.step (h : Coupled cfg s) (hrtl : csm.rtlCsm = true)
    (hsg : State.Single cfg s.node.l15 (s.gated csm i)) : Coupled cfg (s.step cfg csm i) where
  piped := h.piped.step
  awaited := h.awaited.step h.piped.beats hsg
  tagged := h.tagged.step h.awaited h.piped.beats hsg
  node := h.node.step hrtl
  fresh hf hr := by
    have hst : s.node.l15.stallS3 cfg (s.gated csm i) = true := by
      simpa [Refills.step] using hf
    have hs3 : (s.step cfg csm i).node.csm.s3 = s.node.csm.s3 := by
      change (if s.node.l15.stallS3 cfg (s.gated csm i) then _ else _) = _
      rw [hst, if_pos rfl]
    rw [hs3] at hr ⊢
    by_contra hno
    rw [not_or, Bool.not_eq_true, Bool.not_eq_true] at hno
    rw [stallS3_of_reads (h.node.reads hr hno.1 hno.2)] at hst
    cases hst
  ticket := by
    change (if s.node.l15.stallS3 cfg (s.gated csm i) then s.node.csm.s3 else _).ticket < _
    split_ifs
    · exact h.ticket
    · exact s.node.csmReqS2_ticket_lt cfg csm (s.gated csm i)

theorem filled_iff (h : Coupled cfg s) :
    (s.csmReqS2 cfg csm i).writeVal = true ↔ fillsHmc cfg s.node.l15 (s.gated csm i) :=
  h.node.writeVal_iff

theorem missed_of_refillReqVal (h : Coupled cfg s) (hr : s.node.csm.refillReqVal csm = true) :
    s.missed csm = [s.missS3] := by
  have hfresh : s.fresh = true := by
    have hreq := hr
    simp only [Csm.refillReqVal, Bool.and_eq_true, Bool.not_eq_true'] at hreq
    by_contra hf
    rcases h.fresh (by simpa using hf) hreq.1.1.1.2 with hd | hd
    · rw [hreq.1.1.2] at hd
      cases hd
    · rw [hreq.1.2] at hd
      cases hd
  simp [missed, hr, hfresh]

theorem missed_load (h : Coupled cfg s) : (s.missed csm).map (Miss.load csm) = s.node.csm.pushed csm := by
  cases hr : s.node.csm.refillReqVal csm with
  | false => simp [missed, Csm.pushed, hr]
  | true => simp [missed_of_refillReqVal h hr, Csm.pushed, hr, Miss.load, missS3]

/-! ## The queue -/

theorem loads_step_length : (s.step cfg csm i).loads.length = s.loads.length + if s.node.csmSent i.node then 1 else 0 := by
  rw [step]
  split_ifs <;> simp

theorem head_of_reqVal {c : Csm} {q : List RefillReq} (h : c.refills.Holds csmNumTickets q) (hv : c.reqVal = true) :
    ∃ t, q = c.req :: t := by
  have hpos := c.counter_pos_of_reqVal hv
  rw [h.counter_eq] at hpos
  cases q with
  | nil => cases hpos
  | cons r t =>
      have := h.get 0 r rfl
      rw [Nat.add_zero, Nat.mod_eq_of_lt h.rd_lt] at this
      exact ⟨t, by rw [← this]; rfl⟩

theorem sent_le (cfg : Config) (i : RefillsInput) (h : Queued csm s) : (s.step cfg csm i).loads.length ≤ s.misses.length := by
  obtain ⟨q, hq, heq⟩ := h.queue
  have hlen := congrArg List.length heq
  rw [List.length_append, List.length_map] at hlen
  rw [loads_step_length]
  split_ifs with hs
  · simp only [Node.csmSent, Bool.and_eq_true] at hs
    obtain ⟨t, rfl⟩ := head_of_reqVal hq hs.2
    rw [List.length_cons] at hlen
    omega
  · omega

theorem answers_perm (ha : s.Answers i) : (s.answers i ++ s.outstanding.diff (s.answers i)).Perm s.outstanding := by
  rw [answers]
  cases hm : s.answer? i with
  | none => simp
  | some m => simpa using (List.perm_cons_erase (ha m hm).1).symm

theorem Queued.step (h : Queued csm s) (hc : Coupled cfg s) (ha : s.Answers i)
    (hroom : s.node.csm.refillReqVal csm = true → s.misses.length - s.loads.length < csmNumTickets) :
    Queued csm (s.step cfg csm i) where
  queue := by
    obtain ⟨q, hq, heq⟩ := h.queue
    have hlen := congrArg List.length heq
    rw [List.length_append, List.length_map] at hlen
    have hack : s.node.csmSent i.node = true → s.node.csm.reqVal = true := by
      intro hs
      simp only [Node.csmSent, Bool.and_eq_true] at hs
      exact hs.2
    have hpush : s.node.csm.refillReqVal csm = true → q.length < csmNumTickets := by
      intro hr
      have := hroom hr
      omega
    refine ⟨_, Csm.refillsNext_holds csm s.node.csm hq hack hpush, ?_⟩
    change (if s.node.csmSent i.node then _ else _) ++ _ = (s.misses ++ s.missed csm).map _
    rw [List.map_append, missed_load hc, ← heq]
    split_ifs with hs
    · obtain ⟨t, rfl⟩ := head_of_reqVal hq (hack hs)
      simp
    · simp
  sent := by
    have hle := sent_le cfg i h
    have htake : (s.step cfg csm i).misses.take (s.step cfg csm i).loads.length =
        s.misses.take s.loads.length ++ s.sent i := by
      change (s.misses ++ s.missed csm).take _ = _
      rw [List.take_append_of_le_length hle, loads_step_length, List.take_add, Refills.sent]
      split_ifs <;> simp
    rw [htake]
    change ((s.answered ++ s.answers i) ++ (s.outstanding.diff (s.answers i) ++ s.sent i)).Perm _
    rw [List.append_assoc, ← List.append_assoc (s.answers i), ← List.append_assoc s.answered]
    exact (((answers_perm ha).append_left _).trans h.sent).append_right _

/-! ## The answers -/

theorem answerWaits_step_iff (h : Coupled cfg s) (hsg : State.Single cfg s.node.l15 (s.gated csm i)) :
    AnswerWaits (s.step cfg csm i).node.l15 ↔
      (AnswerWaits s.node.l15 ∧ ¬ fillsHmc cfg s.node.l15 (s.gated csm i)) ∨ (s.answer? i).isSome = true := by
  rw [show (s.step cfg csm i).node.l15 = s.node.l15.step cfg (s.gated csm i) from rfl,
    answerWaits_step h.tagged h.piped.beats hsg]
  have hnoc2 : (s.gated csm i).noc2 = i.node.l15.noc2 := rfl
  apply or_congr_right
  rw [answer?, hnoc2]
  by_cases hid : s.node.l15.noc2State = .idle
  · cases hm : i.node.l15.noc2 <;> simp [hid, Option.filter]
  · simp [hid]

theorem not_answer_of_waits (hw : AnswerWaits s.node.l15) : s.answer? i = none := by
  simp [answer?, hw.1]

theorem noc2_of_waits (hw : AnswerWaits s.node.l15) : (s.step cfg csm i).node.l15.noc2 = s.node.l15.noc2 := by
  change (s.node.l15.noc2Next cfg (s.gated csm i)).1 = s.node.l15.noc2
  simp [State.noc2Next, hw.1]

theorem noc2_of_answer {m : Noc2Msg} (hm : s.answer? i = some m) : (s.step cfg csm i).node.l15.noc2 = m := by
  rw [answer?] at hm
  split_ifs at hm with hid
  change (s.node.l15.noc2Next cfg (s.gated csm i)).1 = m
  simp [State.noc2Next, hid, gated, Node.gated, (Option.filter_eq_some_iff.mp hm).1]

theorem filled_of_writeVal (h : Coupled cfg s) (ht : s.Ticketed) (hp : s.Pending)
    (hw : (s.csmReqS2 cfg csm i).writeVal = true) :
    ∃ f, s.filled cfg csm i = [f] ∧ s.fills.map Fill.miss ++ [f.miss] = s.answered ∧ AnswerWaits s.node.l15 := by
  have hf := (filled_iff h).mp hw
  have hwait := AnswerWaits.of_fills h.tagged h.awaited h.piped.beats hf
  rcases hp with ⟨hno, -⟩ | ⟨m, -, hm, hticket⟩
  · exact absurd hwait hno
  · have hmem : m ∈ s.underway := by
      rw [underway, ← hm]
      simp
    refine ⟨_, if_pos hw, ?_, hwait⟩
    have hr : (s.csmReqS2 cfg csm i).ticket = m.ticket := by
      rw [csmReqS2, Node.csmReqS2_of_hmcFill hf.2.1]
      exact hticket
    rw [Csm.addrInNext, if_pos hw, hr, ht.address m hmem]
    exact hm

theorem filled_of_not_writeVal (hw : (s.csmReqS2 cfg csm i).writeVal = false) : s.filled cfg csm i = [] := by
  simp [filled, hw]

theorem filled_spec (h : Coupled cfg s) (ht : s.Ticketed) (hp : s.Pending) {f : Fill} (hf : f ∈ s.filled cfg csm i) :
    (s.csmReqS2 cfg csm i).writeVal = true ∧ s.fills.map Fill.miss ++ [f.miss] = s.answered ∧
      f.miss.ticket = (s.csmReqS2 cfg csm i).ticket ∧ f.line = (s.csmReqS2 cfg csm i).data := by
  cases hw : (s.csmReqS2 cfg csm i).writeVal with
  | false =>
      rw [filled_of_not_writeVal hw] at hf
      cases hf
  | true =>
      obtain ⟨f', hf', hm, -⟩ := filled_of_writeVal h ht hp hw
      rw [hf'] at hf
      obtain rfl := List.mem_singleton.mp hf
      rw [filled, if_pos hw] at hf'
      rw [← List.singleton_inj.mp hf'] at hm ⊢
      exact ⟨rfl, hm, rfl, rfl⟩

theorem underway_of_filled (h : Coupled cfg s) (ht : s.Ticketed) (hp : s.Pending) {f : Fill}
    (hf : f ∈ s.filled cfg csm i) : f.miss ∈ s.answered.drop s.fills.length ∧ f.miss ∈ s.underway := by
  have hm := (filled_spec h ht hp hf).2.1
  rw [underway, ← hm]
  simp

theorem Pending.step (hp : s.Pending) (h : Coupled cfg s) (ht : s.Ticketed) (ha : s.Answers i)
    (hsg : State.Single cfg s.node.l15 (s.gated csm i)) : (s.step cfg csm i).Pending := by
  have hwaits := answerWaits_step_iff h hsg
  have hfills : (s.step cfg csm i).fills.map Fill.miss = s.fills.map Fill.miss ++ (s.filled cfg csm i).map Fill.miss :=
    List.map_append
  have hanswered : (s.step cfg csm i).answered = s.answered ++ s.answers i := rfl
  rw [Pending, hwaits, hfills, hanswered, ← filled_iff h]
  cases hw : (s.csmReqS2 cfg csm i).writeVal with
  | true =>
      obtain ⟨f, hf, hm, hwait⟩ := filled_of_writeVal h ht hp hw
      left
      simp [hf, answers, not_answer_of_waits hwait, ← hm]
  | false =>
      rw [filled_of_not_writeVal hw]
      rcases hp with ⟨hno, hm⟩ | ⟨m, hwait, hm, hticket⟩
      · cases hans : s.answer? i with
        | none =>
            left
            simp [hno, answers, hans, hm]
        | some m =>
            right
            refine ⟨i.answers, by simp, by simp [answers, hans, hm], ?_⟩
            rw [← (ha m hans).2, noc2_of_answer hans]
      · right
        refine ⟨m, by simp [hwait], by simp [answers, not_answer_of_waits hwait, hm], ?_⟩
        rw [← hticket, noc2_of_waits hwait]

theorem waits_of_pending (hp : s.Pending) {m : Miss} (hm : m ∈ s.answered.drop s.fills.length) :
    AnswerWaits s.node.l15 := by
  rcases hp with ⟨-, heq⟩ | ⟨-, hw, -⟩
  · rw [← heq, List.drop_eq_nil_of_le (by simp)] at hm
    cases hm
  · exact hw

theorem answered_step (h : Coupled cfg s) (ht : s.Ticketed) (hp : s.Pending) :
    (s.filled cfg csm i).map Fill.miss ++ (s.step cfg csm i).answered.drop (s.step cfg csm i).fills.length =
      s.answered.drop s.fills.length ++ s.answers i := by
  change _ ++ (s.answered ++ s.answers i).drop (s.fills ++ s.filled cfg csm i).length = _
  cases hw : (s.csmReqS2 cfg csm i).writeVal with
  | true =>
      obtain ⟨f, hf, hm, hwait⟩ := filled_of_writeVal h ht hp hw
      simp [hf, answers, not_answer_of_waits hwait, ← hm]
  | false =>
      have hle : s.fills.length ≤ s.answered.length := by
        rcases hp with ⟨-, hm⟩ | ⟨m, -, hm, -⟩ <;> simp [← hm]
      rw [filled_of_not_writeVal hw, List.append_nil, List.drop_append_of_le_length hle]
      rfl

/-! ## The misses under way -/

theorem underway_step (hq : Queued csm s) (h : Coupled cfg s) (ht : s.Ticketed) (hp : s.Pending) (ha : s.Answers i) :
    ((s.filled cfg csm i).map Fill.miss ++ (s.step cfg csm i).underway).Perm (s.underway ++ s.missed csm) := by
  have hqueue : s.sent i ++ (s.step cfg csm i).misses.drop (s.step cfg csm i).loads.length =
      s.misses.drop s.loads.length ++ s.missed csm := by
    have hle := sent_le cfg i hq
    change s.sent i ++ (s.misses ++ s.missed csm).drop _ = _
    rw [List.drop_append_of_le_length hle, loads_step_length, ← List.drop_drop, ← List.append_assoc, sent]
    split_ifs <;> simp
  have hanswered : (s.filled cfg csm i).map Fill.miss ++ _ = s.answered.drop s.fills.length ++ s.answers i :=
    answered_step h ht hp
  rw [List.perm_iff_count]
  intro m
  have hqueue := congrArg (List.count m) hqueue
  have hanswered := congrArg (List.count m) hanswered
  have hout := (answers_perm ha).count_eq m
  simp only [List.count_append] at hqueue hanswered hout
  rw [underway, underway, show (s.step cfg csm i).outstanding = s.outstanding.diff (s.answers i) ++ s.sent i from rfl]
  simp only [List.count_append]
  omega

theorem room_of_free (ht : s.Ticketed) (h : Coupled cfg s) (hfree : s.TicketFree csm)
    (hr : s.node.csm.refillReqVal csm = true) : s.misses.length - s.loads.length < csmNumTickets := by
  have hnodup : (s.node.csm.s3.ticket :: s.underway.map Miss.ticket).Nodup := by
    apply List.nodup_cons.mpr
    refine ⟨?_, ht.nodup⟩
    intro hm
    obtain ⟨m, hm, ht⟩ := List.mem_map.mp hm
    exact hfree hr m hm ht
  have hlt : s.node.csm.s3.ticket :: s.underway.map Miss.ticket ⊆ List.range csmNumTickets := by
    intro k hk
    rw [List.mem_range]
    rcases List.mem_cons.mp hk with rfl | hk
    · exact h.ticket
    · obtain ⟨m, hm, rfl⟩ := List.mem_map.mp hk
      exact ht.lt m hm
  have hle := (hnodup.subperm hlt).length_le
  simp only [underway, List.length_cons, List.length_map, List.length_append, List.length_drop, List.length_range] at hle
  omega

theorem missed_spec {m : Miss} (hm : m ∈ s.missed csm) : m = s.missS3 ∧ s.node.csm.refillReqVal csm = true := by
  rw [missed] at hm
  split_ifs at hm with hr
  · simp only [Bool.and_eq_true] at hr
    exact ⟨List.mem_singleton.mp hm, hr.2⟩
  · cases hm

theorem tickets_nodup (ht : s.Ticketed) (hq : Queued csm s) (h : Coupled cfg s) (hp : s.Pending) (ha : s.Answers i)
    (hfree : s.TicketFree csm) :
    (((s.filled cfg csm i).map Fill.miss ++ (s.step cfg csm i).underway).map Miss.ticket).Nodup := by
  rw [((underway_step hq h ht hp ha).map Miss.ticket).nodup_iff, List.map_append]
  refine List.nodup_append.mpr ⟨ht.nodup, ?_, ?_⟩
  · rw [missed]
    split_ifs <;> simp
  · intro k hk k' hk'
    obtain ⟨m, hm, rfl⟩ := List.mem_map.mp hk
    obtain ⟨m', hm', rfl⟩ := List.mem_map.mp hk'
    obtain ⟨rfl, hr⟩ := missed_spec hm'
    exact hfree hr m hm

theorem mem_underway_step (hq : Queued csm s) (h : Coupled cfg s) (ht : s.Ticketed) (hp : s.Pending) (ha : s.Answers i)
    {m : Miss} (hm : m ∈ (s.step cfg csm i).underway) : m ∈ s.underway ∨ m ∈ s.missed csm := by
  rw [← List.mem_append, ← (underway_step hq h ht hp ha).mem_iff]
  exact List.mem_append_right _ hm

theorem Ticketed.step (ht : s.Ticketed) (hq : Queued csm s) (h : Coupled cfg s) (hp : s.Pending) (ha : s.Answers i)
    (hfree : s.TicketFree csm) : (s.step cfg csm i).Ticketed := by
  constructor
  · intro m hm
    rcases mem_underway_step hq h ht hp ha hm with hm | hm
    · exact ht.lt m hm
    · rw [(missed_spec hm).1]
      exact h.ticket
  · have hall := tickets_nodup ht hq h hp ha hfree
    rw [List.map_append] at hall
    exact (List.nodup_append.mp hall).2.1
  · intro m hm
    change (if s.node.csm.refillReqVal csm then Function.update s.node.csm.ghidAddr s.node.csm.s3.ticket s.node.csm.s3.addrIn
      else s.node.csm.ghidAddr) m.ticket = m.address
    rcases mem_underway_step hq h ht hp ha hm with hm | hm
    · split_ifs with hr
      · rw [Function.update_of_ne (hfree hr m hm)]
        exact ht.address m hm
      · exact ht.address m hm
    · obtain ⟨rfl, hr⟩ := missed_spec hm
      rw [if_pos hr]
      exact Function.update_self _ _ _

/-! ## The writes -/

theorem storing_step (h : Coupled cfg s) : (s.step cfg csm i).storing = s.filled cfg csm i := by
  have hs3 : (s.step cfg csm i).node.csm.s3 = if s.node.l15.stallS3 cfg (s.gated csm i) then s.node.csm.s3 else _ := rfl
  cases h3 : s.node.l15.stallS3 cfg (s.gated csm i) with
  | true =>
      have hno : (s.csmReqS2 cfg csm i).writeVal = false := by
        by_contra hw
        obtain ⟨hv, -, h2⟩ := (filled_iff h).mp (by simpa using hw)
        rw [State.stallS3_of_advance hv h2] at h3
        cases h3
      have hidle : (s.node.csm.s3.wrEn && !s.node.csm.s3.diagEn) = false := by
        by_contra hw
        simp only [Bool.not_eq_false, Bool.and_eq_true, Bool.not_eq_true'] at hw
        rw [stallS3_of_hmcFill (h.node.writes hw.1 hw.2).1] at h3
        cases h3
      rw [filled_of_not_writeVal hno, storing, hs3, h3, if_pos rfl, hidle]
      rfl
  | false =>
      rw [storing, missS3, hs3, h3, if_neg Bool.false_ne_true, filled]
      change (if (s.csmReqS2 cfg csm i).wrEn && !(s.csmReqS2 cfg csm i).diagEn then _ else _) = _
      have hiff : (s.csmReqS2 cfg csm i).writeVal = ((s.csmReqS2 cfg csm i).wrEn && !(s.csmReqS2 cfg csm i).diagEn) := by
        rw [Bool.eq_iff_iff]
        constructor
        · intro hw
          simp only [CsmReq.writeVal, Bool.and_eq_true] at hw
          rw [hw.1.1.2, hw.1.2]
          rfl
        · intro hw
          simp only [Bool.and_eq_true, Bool.not_eq_true'] at hw
          have hr := h.node.hmcFill_of_wrEn hw.1 hw.2
          have hv : (s.csmReqS2 cfg csm i).val = true := by
            have := hw.1
            simp only [CsmReq.wrEn, Bool.and_eq_true] at this
            exact this.1
          rw [csmReqS2, Node.csmReqS2_of_hmcFill hr] at hv
          simp only [Bool.and_eq_true, Bool.not_eq_true'] at hv
          exact h.node.writeVal_iff.mpr ⟨hv.2, hr, hv.1⟩
      simp only [hiff]
      rfl

theorem written_step (h : Coupled cfg s) (h' : Coupled cfg (s.step cfg csm i)) :
    ∀ f ∈ s.filled cfg csm i, Written (s.step cfg csm i).node.csm f := by
  intro f hf
  have hstore := hf
  rw [← storing_step h, storing] at hstore
  split_ifs at hstore with hs
  · simp only [Bool.and_eq_true, Bool.not_eq_true'] at hs
    have hcache : ((s.step cfg csm i).node.csm.hmc.step (s.step cfg csm i).node.csm.hmcIn).Holds f.miss.address f.line := by
      rw [List.mem_singleton.mp hstore]
      exact Hmc.holds_step _ _ hs.1 hs.2 (h'.node.writes hs.1 hs.2).2
    rw [filled] at hf
    split_ifs at hf with hw
    · obtain rfl := List.mem_singleton.mp hf
      refine ⟨?_, ?_, hcache⟩
      · change (s.node.csm.ghidNext (s.csmReqS2 cfg csm i)) _ = _
        simp [Csm.ghidNext, hw, Csm.ghidWord, Csm.addrInNext]
      · change (s.node.csm.ghidValNext (s.csmReqS2 cfg csm i) _) _ = _
        simp [Csm.ghidValNext, hw, Csm.ghidWord, Csm.addrInNext]
    · cases hf
  · cases hstore

/-! ## The run -/

/-- Memory answers the loads under way, no message is dropped, and no ticket is shared. -/
structure Orderly (cfg : Config) (csm : CsmConfig) (s : Refills) (i : RefillsInput) : Prop where
  single : State.Single cfg s.node.l15 (s.gated csm i)
  answers : s.Answers i
  ticketFree : s.TicketFree csm

instance : Decidable (Orderly cfg csm s i) :=
  decidable_of_iff (State.Single cfg s.node.l15 (s.gated csm i) ∧ s.Answers i ∧ s.TicketFree csm)
    ⟨fun ⟨a, b, c⟩ => ⟨a, b, c⟩, fun ⟨a, b, c⟩ => ⟨a, b, c⟩⟩

structure Kept (cfg : Config) (csm : CsmConfig) (s : Refills) : Prop where
  coupled : Coupled cfg s
  queued : Queued csm s
  ticketed : s.Ticketed
  pending : s.Pending
  stores : s.stores ++ s.storing = s.fills
  written : ∀ f ∈ s.storing, Written s.node.csm f

theorem Kept.step (h : Kept cfg csm s) (hrtl : csm.rtlCsm = true) (ho : Orderly cfg csm s i) :
    Kept cfg csm (s.step cfg csm i) where
  coupled := h.coupled.step hrtl ho.single
  queued := h.queued.step h.coupled ho.answers (room_of_free h.ticketed h.coupled ho.ticketFree)
  ticketed := h.ticketed.step h.queued h.coupled h.pending ho.answers ho.ticketFree
  pending := h.pending.step h.coupled h.ticketed ho.answers ho.single
  stores := by
    rw [storing_step h.coupled]
    exact congrArg (· ++ s.filled cfg csm i) h.stores
  written := by
    rw [storing_step h.coupled]
    exact written_step h.coupled (h.coupled.step hrtl ho.single)

theorem Init.kept (h : Init s) : Kept cfg csm s := by
  have hwait : ¬ AnswerWaits s.node.l15 := by simp [AnswerWaits, h.node.l15.noc2State]
  have hunder : s.underway = [] := by simp [underway, h.misses, h.outstanding, h.answered]
  have hstore : s.storing = [] := by simp [storing, h.node.csm]
  constructor
  · exact ⟨h.node.l15.piped, h.node.l15.awaited, Init.tagged h.node.l15, h.node.coupled,
      by simp [h.fresh], by simp [h.node.csm, csmNumTickets]⟩
  · refine ⟨⟨[], ?_, by simp [h.loads, h.misses]⟩, by simp [h.answered, h.outstanding, h.misses]⟩
    rw [h.node.csm]
    exact Fifo.Holds.empty (by decide) _
  · constructor <;> simp [hunder]
  · exact .inl ⟨hwait, by simp [h.fills, h.answered]⟩
  · simp [hstore, h.stores, h.fills]
  · simp [hstore]

theorem Kept.disciplined (h : Kept cfg csm s) : Disciplined csm s where
  loads := h.queued.queue
  counter := by
    obtain ⟨q, hq, -⟩ := h.queued.queue
    rw [hq.counter_eq]
    exact hq.length_le
  sent := h.queued.sent
  fills := by
    rcases h.pending with ⟨-, hm⟩ | ⟨m, -, hm, -⟩
    · exact ⟨[], Nat.zero_le _, by simpa using hm⟩
    · exact ⟨[m], Nat.le_refl _, hm⟩
  stores := h.stores
  written := h.written

/-- Along every run in which no two misses under way share a ticket, every miss has one load and
every answer is written for the miss it belongs to. -/
theorem refill_discipline (hrtl : csm.rtlCsm = true)
    (h : Machine.Reaches Init (step cfg csm) (Orderly cfg csm) s) : Disciplined csm s :=
  (h.invariant (P := Kept cfg csm) (fun _ hi => hi.kept) fun _ _ hk ho => hk.step hrtl ho).disciplined

def lowOrder : CsmConfig where
  rtlCsm := true
  csmEn := true
  systemTileCount := 4
  homeAllocMethod := .lowOrderBits

/-- A page of domain `hdid`, which has one tile. -/
def localPage (hdid : Nat) : TlbCsm := ⟨BitVec.ofNat 33 (hdid * 2 ^ 22 + 2 ^ 16)⟩

/-- A load that misses in the home map cache, and the answer to its refill. -/
def oneMiss : List RefillsInput :=
  let load : PcxReq := { rqtype := .load, address := 0x1000 }
  let answer : Noc2Msg := { reqtype := .dataAck, hmcFill := true, mshrType := .ld, data := [0x8000000180000002, 0] }
  [{ node := { l15 := { pcx := some load }, pcxCsm := localPage 1 } }, {}, {}, {}, {}, {},
    { node := { l15 := { noc2 := some answer } }, answers := ⟨2, 64⟩ }, {}, {}, {}]

theorem refill_discipline_oneMiss :
    Disciplined lowOrder (Machine.run (step .default lowOrder) reset oneMiss) ∧
      (Machine.run (step .default lowOrder) reset oneMiss).stores.map Fill.miss = [⟨2, 64⟩] :=
  ⟨refill_discipline rfl ((Machine.Reaches.start init_reset).run (by decide +kernel)), by decide +kernel⟩

def fourThreads : Config := { Config.default with threads := 4, threads_pos := by decide }

/-- Loads of two threads that miss in pages of two domains; the first refill is answered. -/
def sharedTicket : List RefillsInput :=
  let load (threadid address : Nat) : PcxReq := { rqtype := .load, address := address, threadid := threadid }
  let answer : Noc2Msg := { reqtype := .dataAck, hmcFill := true, mshrType := .ld, data := [0x8000000180000002, 0] }
  [{ node := { l15 := { pcx := some (load 0 0x1000) }, pcxCsm := localPage 1 } },
    { node := { l15 := { pcx := some (load 2 0x2000) }, pcxCsm := localPage 2 } }, {}, {}, {}, {}, {}, {}, {},
    { node := { l15 := { noc2 := some answer } }, answers := ⟨2, 64⟩ }, {}, {}]

/-- The tickets have one bit of the thread: the second miss takes the address of the first. -/
theorem refill_not_disciplined :
    Machine.Meets (step fourThreads lowOrder)
        (fun s i => State.Single fourThreads s.node.l15 (s.gated lowOrder i) ∧ s.Answers i) reset sharedTicket ∧
      ¬ Disciplined lowOrder (Machine.run (step fourThreads lowOrder) reset sharedTicket) := by
  refine ⟨by decide +kernel, ?_⟩
  intro h
  obtain ⟨rest, -, hm⟩ := h.fills
  have hfills : (Machine.run (step fourThreads lowOrder) reset sharedTicket).fills.map Fill.miss = [⟨2, 128⟩] := by
    decide +kernel
  have hanswered : (Machine.run (step fourThreads lowOrder) reset sharedTicket).answered = [⟨2, 64⟩] := by
    decide +kernel
  rw [hfills, hanswered] at hm
  cases hm

end Refills

end OpenPiton.Home
