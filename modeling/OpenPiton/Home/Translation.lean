import OpenPiton.Home.Lookups
import OpenPiton.Home.Refills

namespace OpenPiton.Home

open L15

/-- A command as `noc1buffer` takes it, with the home it is to have; the commands that look up no home
have none. -/
structure Entry where
  command : Noc1Command
  slot : SlotHome
  wanted : Option HomeId
  deriving DecidableEq, Repr

/-- The L1.5 with the commands it has put into `noc1buffer` and those it has sent. -/
structure Homes where
  refills : Refills
  entered : List Entry := []
  sent : List (Noc1Command × HomeId) := []

/-- What the home map table says of a place. -/
def tableHome (table : Nat → HmtLine) (address : Nat) : HomeId :=
  .ofBits (wordData (table (hmcTag address) (hmcOffset address)))

/-- The home of a request: a global page names it, and for a local page the table has it. -/
def requestHome (csm : CsmConfig) (table : Nat → HmtLine) (page : TlbCsm) (address : Nat) : HomeId :=
  if page.isGlobal then { chip := page.chipid, y := page.y, x := page.x }
  else tableHome table (csm.homeAddress page address)

/-- A message has the line of the table, and the home in it is valid. -/
structure FromTable (table : Nat → HmtLine) (m : Noc2Msg) (address : Nat) : Prop where
  line : ∀ j < 4, hmtLine (m.word 0) (m.word 1) j = table (hmcTag address) j
  valid : wordValid (table (hmcTag address) (hmcOffset address)) = true

instance (table : Nat → HmtLine) (m : Noc2Msg) (address : Nat) : Decidable (FromTable table m address) :=
  decidable_of_iff ((∀ j < 4, hmtLine (m.word 0) (m.word 1) j = table (hmcTag address) j) ∧
      wordValid (table (hmcTag address) (hmcOffset address)) = true)
    ⟨fun ⟨a, b⟩ => ⟨a, b⟩, fun ⟨a, b⟩ => ⟨a, b⟩⟩

namespace Homes

variable (cfg : Config) (csm : CsmConfig) (table : Nat → HmtLine) (s : Homes) (i : RefillsInput)

def node : Node := s.refills.node

def gated : Input := s.node.gated csm i.node

def csmReqS2 : CsmReq := s.refills.csmReqS2 cfg csm i

/-- The commands that have entered and are not sent, oldest first. -/
def held : List Entry := s.entered.drop s.sent.length

def enters : List Entry :=
  ((s.node.l15.noc1bufferReq cfg).map fun r =>
    { command := s.node.l15.noc1.commandOf r
      slot := ⟨(s.node.noc1Homeid cfg csm).1, (s.node.noc1Homeid cfg csm).2, s.node.csmTicketS3⟩
      wanted :=
        if looksUp (s.node.l15.s3.ctl cfg).noc1Op then
          some (requestHome csm table s.node.csm.s3.page s.node.l15.s3.address)
        else none : Entry }).toList

def leaves : List (Noc1Command × HomeId) :=
  if s.node.noc1Sent csm i.node then [(s.node.l15.noc1.head, s.node.homeid)] else []

def step : Homes where
  refills := s.refills.step cfg csm i
  entered := s.entered ++ s.enters cfg csm table
  sent := s.sent ++ s.leaves csm i

structure Init : Prop where
  refills : s.refills.Init
  entered : s.entered = []
  sent : s.sent = []

def reset : Homes where
  refills := Refills.reset

theorem init_reset : Init reset := ⟨Refills.init_reset, rfl, rfl⟩

/-- What goes right in a step: the refills are in order, their answers are the lines of the table with
the homes looked for valid, pages are local, there is room for a command, and a home that has come in
under a ticket stays until the command that waits for it leaves. -/
structure Proper : Prop where
  orderly : Refills.Orderly cfg csm s.refills i
  answer : ∀ m ∈ s.refills.answer? i, FromTable table m i.answers.address
  plain : Node.Plain cfg csm s.node (s.gated csm i)
  room : s.node.l15.noc1bufferReqVal cfg = true → s.node.noc1Sent csm i.node = false →
    s.node.l15.noc1.commandVal s.node.l15.noc1.commandWrindex = false
  taken : (s.csmReqS2 cfg csm i).readVal = true → ∀ e ∈ s.held, e.slot.homeidVal = false →
    e.slot.ticket = (s.csmReqS2 cfg csm i).ticket → s.node.csm.ghidVal e.slot.ticket = false
  cleared : s.node.noc1Sent csm i.node = true → ∀ e ∈ s.held.tail, e.slot.homeidVal = false →
    e.slot.ticket = s.node.head.ticket → s.node.csm.ghidVal e.slot.ticket = false

instance : Decidable (Proper cfg csm table s i) :=
  decidable_of_iff (Refills.Orderly cfg csm s.refills i ∧
      (∀ m ∈ s.refills.answer? i, FromTable table m i.answers.address) ∧
      Node.Plain cfg csm s.node (s.gated csm i) ∧
      (s.node.l15.noc1bufferReqVal cfg = true → s.node.noc1Sent csm i.node = false →
        s.node.l15.noc1.commandVal s.node.l15.noc1.commandWrindex = false) ∧
      ((s.csmReqS2 cfg csm i).readVal = true → ∀ e ∈ s.held, e.slot.homeidVal = false →
        e.slot.ticket = (s.csmReqS2 cfg csm i).ticket → s.node.csm.ghidVal e.slot.ticket = false) ∧
      (s.node.noc1Sent csm i.node = true → ∀ e ∈ s.held.tail, e.slot.homeidVal = false →
        e.slot.ticket = s.node.head.ticket → s.node.csm.ghidVal e.slot.ticket = false))
    ⟨fun ⟨a, b, c, d, e, f⟩ => ⟨a, b, c, d, e, f⟩, fun ⟨a, b, c, d, e, f⟩ => ⟨a, b, c, d, e, f⟩⟩

/-- Every command is sent once, in order and with its home, and the oldest leaves when the encoder is
ready, unless the refill of its home is under way. -/
structure Translated : Prop where
  held : Ring.Holds noc1BufferNumSlots s.node.l15.noc1.command s.node.l15.noc1.commandVal
    s.node.l15.noc1.commandRdindex s.node.l15.noc1.commandWrindex (s.held.map Entry.command)
  sent : List.Forall₂ (fun e x => x.1 = e.command ∧ ∀ home ∈ e.wanted, x.2 = home)
    (s.entered.take s.sent.length) s.sent
  ready : s.node.l15.noc1.reqVal = true → ∀ i : NodeInput, i.l15.noc1Ack = true →
    s.node.noc1Sent csm i = true ∨ ∃ m ∈ s.refills.underway, m.ticket = s.node.head.ticket

/-! ## What a run keeps -/

/-- The home of a command: kept with it, or on its way to its ticket, or under its ticket. -/
def Homed (e : Entry) : Prop :=
  match e.slot.homeidVal with
  | true => ∀ home ∈ e.wanted, e.slot.homeid = home
  | false => ∃ address, e.wanted = some (tableHome table address) ∧
      (⟨e.slot.ticket, address⟩ ∈ s.refills.underway ∨
        s.node.csm.ghidVal e.slot.ticket = true ∧ s.node.csm.ghid e.slot.ticket = tableHome table address)

/-- The refills carry the lines of the table. -/
structure Faithful : Prop where
  cache : s.node.csm.hmc.Agrees table
  storing : ∀ f ∈ s.refills.storing, ∀ j < 4, f.line j = table (hmcTag f.miss.address) j
  pending : ∀ m ∈ s.refills.answered.drop s.refills.fills.length, FromTable table s.node.l15.noc2 m.address

/-- A ticket has no home while a request of S3 looks up its home under it or its refill is under way. -/
structure Vacant : Prop where
  underway : ∀ m ∈ s.refills.underway, s.node.csm.ghidVal m.ticket = false
  lookup : s.node.csm.s3.rdEn = true → s.node.csm.s3.flushEn = false → s.node.csm.ghidVal s.node.csm.s3.ticket = false

structure Buffered : Prop where
  ring : Ring.Holds noc1BufferNumSlots (fun k => (s.node.l15.noc1.command k, s.node.slots k))
    s.node.l15.noc1.commandVal s.node.l15.noc1.commandRdindex s.node.l15.noc1.commandWrindex
    (s.held.map fun e => (e.command, e.slot))
  le : s.sent.length ≤ s.entered.length

variable {cfg csm table s i}

/-! ## The table -/

theorem Faithful.step (h : s.Faithful table) (hr : Refills.Kept cfg csm s.refills) (hl : Node.Looked csm s.node)
    (hp : Proper cfg csm table s i) : (s.step cfg csm table i).Faithful table where
  cache := by
    apply Hmc.Agrees.step h.cache
    · intro _
      exact hl.diag
    · intro hw _ j hj
      refine h.storing ⟨s.refills.missS3, s.node.csm.s3.dataIn⟩ ?_ j hj
      have hwr : s.refills.node.csm.s3.wrEn = true := hw
      have hdiag : s.refills.node.csm.s3.diagEn = false := hl.diag
      rw [Refills.storing, hwr, hdiag]
      exact List.mem_singleton.mpr rfl
  storing := by
    intro f hf j hj
    rw [show (s.step cfg csm table i).refills = s.refills.step cfg csm i from rfl, Refills.storing_step hr.coupled] at hf
    obtain ⟨hw, -, -, hline⟩ := Refills.filled_spec hr.coupled hr.ticketed hr.pending hf
    have hmem := (Refills.underway_of_filled hr.coupled hr.ticketed hr.pending hf).1
    have hfill := ((Refills.filled_iff hr.coupled).mp hw).2.1
    rw [hline, Refills.csmReqS2, Node.csmReqS2_of_hmcFill hfill]
    exact (h.pending _ hmem).line j hj
  pending := by
    intro m hm
    have hmem : m ∈ s.refills.answered.drop s.refills.fills.length ++ s.refills.answers i := by
      rw [← Refills.answered_step hr.coupled hr.ticketed hr.pending]
      exact List.mem_append_right _ hm
    rcases List.mem_append.mp hmem with hold | hnew
    · have hw := Refills.waits_of_pending hr.pending hold
      rw [show (s.step cfg csm table i).node.l15.noc2 = s.node.l15.noc2 from Refills.noc2_of_waits hw]
      exact h.pending m hold
    · rw [Refills.answers] at hnew
      cases ha : s.refills.answer? i with
      | none => simp [ha] at hnew
      | some msg =>
          rw [ha] at hnew
          obtain rfl := List.mem_singleton.mp hnew
          rw [show (s.step cfg csm table i).node.l15.noc2 = msg from Refills.noc2_of_answer ha]
          exact hp.answer msg ha

/-! ## The tickets -/

section Tickets

variable (hr : Refills.Kept cfg csm s.refills) (ho : Refills.Orderly cfg csm s.refills i)

include hr ho

theorem filled_ne {f : Fill} (hf : f ∈ s.refills.filled cfg csm i) {m : Miss}
    (hm : m ∈ (s.refills.step cfg csm i).underway) : f.miss.ticket ≠ m.ticket := by
  have hall := Refills.tickets_nodup hr.ticketed hr.queued hr.coupled hr.pending ho.answers ho.ticketFree
  rw [List.map_append] at hall
  exact (List.nodup_append.mp hall).2.2 _ (List.mem_map_of_mem (List.mem_map_of_mem hf)) _ (List.mem_map_of_mem hm)

omit ho in
theorem filled_of_writeVal (hw : (s.csmReqS2 cfg csm i).writeVal = true) :
    ∃ f ∈ s.refills.filled cfg csm i, f.miss ∈ s.refills.underway ∧ f.miss.ticket = (s.csmReqS2 cfg csm i).ticket := by
  obtain ⟨f, hf, -⟩ := Refills.filled_of_writeVal hr.coupled hr.ticketed hr.pending hw
  have hmem : f ∈ s.refills.filled cfg csm i := by simp [hf]
  exact ⟨f, hmem, (Refills.underway_of_filled hr.coupled hr.ticketed hr.pending hmem).2,
    (Refills.filled_spec hr.coupled hr.ticketed hr.pending hmem).2.2.1⟩

theorem underway_kept {m : Miss} (hm : m ∈ s.refills.underway ∨ m ∈ s.refills.missed csm)
    (hf : ∀ f ∈ s.refills.filled cfg csm i, f.miss ≠ m) : m ∈ (s.refills.step cfg csm i).underway := by
  rw [← List.mem_append, ← (Refills.underway_step (i := i) hr.queued hr.coupled hr.ticketed hr.pending ho.answers).mem_iff] at hm
  rcases List.mem_append.mp hm with hm | hm
  · obtain ⟨f, hf', rfl⟩ := List.mem_map.mp hm
    exact absurd rfl (hf f hf')
  · exact hm

theorem Vacant.step (hv : s.Vacant) (hl : Node.Looked csm s.node) : (s.step cfg csm table i).Vacant where
  underway := by
    intro m hm
    by_contra hval
    rw [Bool.not_eq_false] at hval
    have hold : s.node.csm.ghidVal m.ticket = false := by
      rcases Refills.mem_underway_step hr.queued hr.coupled hr.ticketed hr.pending ho.answers hm with hm | hm
      · exact hv.underway m hm
      · obtain ⟨rfl, hreq⟩ := Refills.missed_spec hm
        simp only [Csm.refillReqVal, Bool.and_eq_true, Bool.not_eq_true'] at hreq
        exact hv.lookup hreq.1.1.1.2 hreq.1.2
    obtain ⟨hw, ht⟩ := Csm.writeVal_of_ghidValNext hval hold
    obtain ⟨f, hf, -, hft⟩ := filled_of_writeVal hr hw
    exact filled_ne hr ho hf hm (hft.trans ht)
  lookup := by
    intro hrd hfl
    have hcsm : (s.step cfg csm table i).node.csm.s3 =
        if s.node.l15.stallS3 cfg (s.gated csm i) then s.node.csm.s3 else _ := rfl
    cases h3 : s.node.l15.stallS3 cfg (s.gated csm i) with
    | true =>
        rw [h3, if_pos rfl] at hcsm
        rw [hcsm] at hrd hfl
        have hst : s.node.l15.stallS3 cfg (s.gated csm i) = false :=
          stallS3_of_reads (hr.coupled.node.reads hrd hl.diag hfl)
        rw [h3] at hst
        cases hst
    | false =>
        rw [h3, if_neg Bool.false_ne_true] at hcsm
        rw [hcsm] at hrd ⊢
        have hread : (s.csmReqS2 cfg csm i).readVal = true := by
          have hrd' : (s.csmReqS2 cfg csm i).rdEn = true := hrd
          simp only [CsmReq.rdEn, Bool.and_eq_true] at hrd'
          simp [CsmReq.readVal, hrd'.1]
        exact Csm.ghidValNext_of_readVal hread

omit ho in
theorem filled_home (hf : s.Faithful table) (hf' : (s.step cfg csm table i).Faithful table)
    (hr' : Refills.Kept cfg csm (s.refills.step cfg csm i)) {f : Fill} (hmem : f ∈ s.refills.filled cfg csm i) :
    (s.step cfg csm table i).node.csm.ghidVal f.miss.ticket = true ∧
      (s.step cfg csm table i).node.csm.ghid f.miss.ticket = tableHome table f.miss.address := by
  have hstore : f ∈ (s.refills.step cfg csm i).storing := by
    rw [Refills.storing_step hr.coupled]
    exact hmem
  have hw := hr'.written f hstore
  have hline := hf'.storing f hstore (hmcOffset f.miss.address) (Nat.mod_lt _ (by decide))
  have hvalid : wordValid (table (hmcTag f.miss.address) (hmcOffset f.miss.address)) = true :=
    (hf.pending f.miss (Refills.underway_of_filled hr.coupled hr.ticketed hr.pending hmem).1).valid
  refine ⟨?_, ?_⟩
  · rw [show (s.step cfg csm table i).node = (s.refills.step cfg csm i).node from rfl, hw.valid, hline]
    exact hvalid
  · rw [show (s.step cfg csm table i).node = (s.refills.step cfg csm i).node from rfl, hw.home, hline]
    rfl

end Tickets

/-! ## The commands -/

theorem held_step (hb : s.Buffered) (hs : s.node.noc1Sent csm i.node = true → s.held ≠ []) :
    (s.step cfg csm table i).held = (if s.node.noc1Sent csm i.node then s.held.tail else s.held) ++ s.enters cfg csm table := by
  change (s.entered ++ s.enters cfg csm table).drop (s.sent ++ s.leaves csm i).length = _
  have hle := hb.le
  have hlen : (s.sent ++ s.leaves csm i).length ≤ s.entered.length := by
    rw [List.length_append, leaves]
    split_ifs with hn
    · have := hs hn
      rw [held, Ne, List.drop_eq_nil_iff] at this
      simp only [List.length_singleton]
      omega
    · simpa using hle
  rw [List.drop_append_of_le_length hlen]
  congr 1
  rw [List.length_append, ← List.drop_drop, leaves]
  split_ifs
  · simp [held]
  · simp [held]

theorem Buffered.ne_nil (hb : s.Buffered) (hs : s.node.noc1Sent csm i.node = true) : s.held ≠ [] := by
  have hval : s.node.l15.noc1.commandVal s.node.l15.noc1.commandRdindex = true := by
    simp only [Node.noc1Sent, State.noc1Sent, Bool.and_eq_true] at hs
    exact hs.2
  have := hb.ring.val_rd.mp hval
  intro h
  rw [h] at this
  exact this rfl

theorem Buffered.step (hb : s.Buffered) (hroom : s.node.l15.noc1bufferReqVal cfg = true →
      s.node.noc1Sent csm i.node = false → s.node.l15.noc1.commandVal s.node.l15.noc1.commandWrindex = false) :
    (s.step cfg csm table i).Buffered := by
  have hheld : (s.step cfg csm table i).held =
      (if s.node.noc1Sent csm i.node then s.held.tail else s.held) ++ s.enters cfg csm table :=
    held_step hb hb.ne_nil
  have henters : (s.enters cfg csm table).map (fun e => (e.command, e.slot)) = s.node.entering cfg csm := by
    rw [enters, Node.entering]
    cases s.node.l15.noc1bufferReq cfg <;> rfl
  refine ⟨?_, ?_⟩
  · have hring := Node.Queues.step (i := i.node) hb.ring hroom
    rw [hheld, List.map_append, henters, apply_ite (List.map _), List.map_tail]
    exact hring
  · change (s.sent ++ s.leaves csm i).length ≤ (s.entered ++ s.enters cfg csm table).length
    have hle := hb.le
    rw [List.length_append, List.length_append, leaves]
    split_ifs with hs
    · have := List.length_pos_iff.mpr (hb.ne_nil hs)
      rw [held, List.length_drop] at this
      simp only [List.length_singleton]
      omega
    · simp only [List.length_nil]
      omega

theorem Buffered.head (hb : s.Buffered) {e : Entry} {l : List Entry} (hl : s.held = e :: l) :
    s.node.l15.noc1.head = e.command ∧ s.node.head = e.slot := by
  have hring := hb.ring
  rw [hl] at hring
  exact Prod.mk.inj hring.head

/-- A command that stays in the buffer keeps its home, or gets it. -/
theorem Homed.step (hr : Refills.Kept cfg csm s.refills) (hr' : Refills.Kept cfg csm (s.refills.step cfg csm i))
    (hf : s.Faithful table) (hf' : (s.step cfg csm table i).Faithful table) (hv : s.Vacant)
    (hp : Proper cfg csm table s i) {e : Entry} (he : s.Homed table e) (hheld : e ∈ s.held)
    (hstay : s.node.noc1Sent csm i.node = true → e ∈ s.held.tail) : (s.step cfg csm table i).Homed table e := by
  rw [Homed] at he ⊢
  cases hval : e.slot.homeidVal with
  | true =>
      rw [hval] at he
      exact he
  | false =>
      rw [hval] at he
      obtain ⟨address, hwanted, hwhere⟩ := he
      refine ⟨address, hwanted, ?_⟩
      rcases hwhere with hunder | ⟨hghidVal, hghid⟩
      · by_cases hfilled : ∃ f ∈ s.refills.filled cfg csm i, f.miss = ⟨e.slot.ticket, address⟩
        · obtain ⟨f, hmem, hmiss⟩ := hfilled
          have := filled_home hr hf hf' hr' hmem
          rw [hmiss] at this
          exact .inr this
        · refine .inl (underway_kept hr hp.orderly (.inl hunder) ?_)
          intro f hmem hmiss
          exact hfilled ⟨f, hmem, hmiss⟩
      · right
        have hkept : (s.step cfg csm table i).node.csm.ghid e.slot.ticket = s.node.csm.ghid e.slot.ticket ∧
            (s.step cfg csm table i).node.csm.ghidVal e.slot.ticket = s.node.csm.ghidVal e.slot.ticket := by
          apply Csm.ghid_kept
          · intro hw ht
            obtain ⟨f, -, hmem, hft⟩ := filled_of_writeVal hr hw
            have := hv.underway f.miss hmem
            rw [hft.trans ht, hghidVal] at this
            cases this
          · intro hread ht
            have := hp.taken hread e hheld hval ht.symm
            rw [hghidVal] at this
            cases this
          · intro hclear
            split_ifs at hclear with hsent
            have := hp.cleared hsent e (hstay hsent) hval (Option.some.inj hclear).symm
            rw [hghidVal] at this
            cases this
        rw [hkept.1, hkept.2]
        exact ⟨hghidVal, hghid⟩

/-- The home of a command that enters is that of its request, or its refill is under way. -/
theorem homed_enters (hrtl : csm.rtlCsm = true) (hen : csm.csmEn = true) (hr : Refills.Kept cfg csm s.refills)
    (hf : s.Faithful table) (hl : Node.Looked csm s.node) (hp : Proper cfg csm table s i) {e : Entry}
    (he : e ∈ s.enters cfg csm table) : (s.step cfg csm table i).Homed table e := by
  have hreq : s.node.l15.noc1bufferReqVal cfg = true := by
    rw [← State.noc1bufferReq_isSome]
    cases hn : s.node.l15.noc1bufferReq cfg with
    | none => simp [enters, hn] at he
    | some r => rfl
  obtain ⟨r, hn⟩ := Option.isSome_iff_exists.mp (State.noc1bufferReq_isSome.trans hreq)
  rw [enters, hn] at he
  obtain rfl := List.mem_singleton.mp he
  rw [Homed]
  simp only
  cases hlook : looksUp (s.node.l15.s3.ctl cfg).noc1Op with
  | false =>
      have hval : (s.node.noc1Homeid cfg csm).2 = true := by
        have hne : ((s.node.l15.s3.ctl cfg).noc1Op != .none) = true := by
          simp only [State.noc1bufferReqVal, Bool.and_eq_true] at hreq
          exact State.noc1Op_of_reqVal hreq.1.1.2
        rw [Node.noc1Homeid]
        cases hop : (s.node.l15.s3.ctl cfg).noc1Op with
        | none => exact absurd hop (by simpa using hne)
        | writebackGuardIfLruM | writebackGuardIfFlushM | writebackGuardIfTagcheckM => simp [hrtl]
        | interruptFwd => rfl
        | _ => rw [hop] at hlook; cases hlook
      rw [hval]
      simp
  | true =>
      obtain ⟨hv, hreads⟩ := Node.reads_of_req hreq hlook
      have hlu := hl.reads hv hreads
      have hhome : s.node.noc1Homeid cfg csm = (s.node.csm.resData csm, s.node.csm.resVal csm) := by
        rw [Node.noc1Homeid]
        cases hop : (s.node.l15.s3.ctl cfg).noc1Op with
        | writebackGuardIfLruM | writebackGuardIfFlushM | writebackGuardIfTagcheckM | interruptFwd =>
            rw [hop] at hlook
            cases hlook
        | _ => rfl
      have hwanted : requestHome csm table s.node.csm.s3.page s.node.l15.s3.address =
          tableHome table s.node.csm.s3.addrIn := by
        rw [requestHome, hlu.page, if_neg Bool.false_ne_true, hlu.addrIn]
      rw [hhome, hwanted]
      cases hhit : s.node.csm.hmc.hit s.node.csm.hmcIn with
      | true =>
          have hval : s.node.csm.resVal csm = true := by
            simp [Csm.resVal, hrtl, hen, hlu.rdEn, Csm.refillReqVal, hhit]
          have hdata : s.node.csm.resData csm = tableHome table s.node.csm.s3.addrIn := by
            have hdata : s.node.csm.resData csm = .ofBits (s.node.csm.hmc.dataOut s.node.csm.hmcIn) := by
              simp [Csm.resData, hrtl, hen, hl.diag, hlu.page]
            rw [hdata, hf.cache.dataOut hhit]
            rfl
          simp [hval, hdata]
      | false =>
          have hmiss : s.node.csm.refillReqVal csm = true := by
            simp [Csm.refillReqVal, hrtl, hen, hlu.rdEn, hl.diag, hlu.flushEn, hhit]
          have hval : s.node.csm.resVal csm = false := by
            simp [Csm.resVal, hrtl, hen, hmiss]
          rw [hval]
          refine ⟨s.node.csm.s3.addrIn, rfl, .inl ?_⟩
          have hnew : s.refills.missS3 ∈ s.refills.missed csm := by
            rw [Refills.missed_of_refillReqVal hr.coupled hmiss]
            exact List.mem_singleton.mpr rfl
          rw [← hlu.ticket]
          refine underway_kept hr hp.orderly (.inr hnew) ?_
          intro f hmem hf
          have hunder := (Refills.underway_of_filled hr.coupled hr.ticketed hr.pending hmem).2
          refine hp.orderly.ticketFree hmiss _ hunder ?_
          rw [hf]
          rfl

theorem leaves_spec (hrtl : csm.rtlCsm = true) (hb : s.Buffered) (hv : s.Vacant) {e : Entry} {l : List Entry}
    (hl : s.held = e :: l) (he : s.Homed table e) (hs : s.node.homeidVal csm = true) :
    s.node.l15.noc1.head = e.command ∧ ∀ home ∈ e.wanted, s.node.homeid = home := by
  obtain ⟨hcommand, hslot⟩ := hb.head hl
  refine ⟨hcommand, ?_⟩
  rw [Node.homeid, hslot]
  rw [Node.homeidVal, hslot, hrtl, Bool.true_and] at hs
  rw [Homed] at he
  cases hval : e.slot.homeidVal with
  | true =>
      rw [hval] at he
      simpa using he
  | false =>
      rw [hval] at he hs
      rw [Bool.false_or] at hs
      obtain ⟨address, hwanted, hunder | ⟨-, hghid⟩⟩ := he
      · rw [hv.underway _ hunder] at hs
        cases hs
      · intro home hhome
        rw [hwanted] at hhome
        rw [if_neg Bool.false_ne_true, hghid]
        exact Option.some.inj hhome

structure Kept (cfg : Config) (csm : CsmConfig) (table : Nat → HmtLine) (s : Homes) : Prop where
  refills : Refills.Kept cfg csm s.refills
  looked : Node.Looked csm s.node
  faithful : s.Faithful table
  vacant : s.Vacant
  buffered : s.Buffered
  homed : ∀ e ∈ s.held, s.Homed table e
  sent : List.Forall₂ (fun e x => x.1 = e.command ∧ ∀ home ∈ e.wanted, x.2 = home)
    (s.entered.take s.sent.length) s.sent

theorem sent_step (hrtl : csm.rtlCsm = true) (h : Kept cfg csm table s) :
    List.Forall₂ (fun e x => x.1 = e.command ∧ ∀ home ∈ e.wanted, x.2 = home)
      ((s.step cfg csm table i).entered.take (s.step cfg csm table i).sent.length) (s.step cfg csm table i).sent := by
  change List.Forall₂ _ ((s.entered ++ s.enters cfg csm table).take (s.sent ++ s.leaves csm i).length) (s.sent ++ s.leaves csm i)
  rw [leaves]
  split_ifs with hs
  · obtain ⟨e, l, hl⟩ := List.exists_cons_of_ne_nil (h.buffered.ne_nil hs)
    have hlen : s.sent.length + 1 ≤ s.entered.length := by
      have := congrArg List.length hl
      rw [held, List.length_drop, List.length_cons] at this
      omega
    have htake : (s.entered ++ s.enters cfg csm table).take (s.sent.length + 1) = s.entered.take s.sent.length ++ [e] := by
      rw [List.take_append_of_le_length hlen, List.take_add, ← held, hl]
      rfl
    rw [List.length_append, List.length_singleton, htake]
    refine List.rel_append h.sent (.cons ?_ .nil)
    have hval : s.node.homeidVal csm = true := by
      simp only [Node.noc1Sent, State.noc1Sent, Node.gated, Bool.and_eq_true] at hs
      exact hs.1.2
    exact leaves_spec hrtl h.buffered h.vacant hl (h.homed e (by rw [hl]; exact List.mem_cons_self)) hval
  · rw [List.append_nil, List.take_append_of_le_length h.buffered.le]
    exact h.sent

theorem Kept.step (hrtl : csm.rtlCsm = true) (hen : csm.csmEn = true) (h : Kept cfg csm table s)
    (hp : Proper cfg csm table s i) : Kept cfg csm table (s.step cfg csm table i) := by
  have hr' := h.refills.step hrtl hp.orderly
  have hf' := h.faithful.step h.refills h.looked hp
  refine ⟨hr', h.looked.step hen hp.plain, hf', Vacant.step h.refills hp.orderly h.vacant h.looked,
    h.buffered.step hp.room, ?_, sent_step hrtl h⟩
  intro e he
  rw [held_step h.buffered h.buffered.ne_nil] at he
  rcases List.mem_append.mp he with he | he
  · have hheld : e ∈ s.held := by
      split_ifs at he
      · exact List.mem_of_mem_tail he
      · exact he
    refine Homed.step h.refills hr' h.faithful hf' h.vacant hp (h.homed e hheld) hheld ?_
    intro hs
    rwa [if_pos hs] at he
  · exact homed_enters hrtl hen h.refills h.faithful h.looked hp he

theorem Init.kept (h : Init s) : Kept cfg csm table s := by
  have hnode : Node.Init s.node := h.refills.node
  have hunder : s.refills.underway = [] := by
    simp [Refills.underway, h.refills.misses, h.refills.outstanding, h.refills.answered]
  have hheld : s.held = [] := by simp [held, h.entered]
  refine ⟨h.refills.kept, hnode.looked, ?_, ?_, ?_, by simp [hheld], by simp [h.entered, h.sent]⟩
  · constructor
    · rw [hnode.csm]
      intro k j _ hv
      cases hv
    · rw [Refills.storing, show s.refills.node.csm = {} from hnode.csm]
      simp
    · simp [h.refills.answered]
  · constructor
    · simp [hunder]
    · simp [hnode.csm]
  · refine ⟨?_, by simp [h.entered, h.sent]⟩
    rw [hheld, hnode.l15.noc1]
    exact Ring.Holds.empty (by decide)

theorem Kept.translated (hrtl : csm.rtlCsm = true) (h : Kept cfg csm table s) : Translated csm s where
  held := by
    have hring := h.buffered.ring.map Prod.fst
    rwa [List.map_map] at hring
  sent := h.sent
  ready := by
    intro hreq i hack
    have hne : s.held ≠ [] := by
      have := h.buffered.ring.val_rd.mp hreq
      simpa using this
    obtain ⟨e, l, hl⟩ := List.exists_cons_of_ne_nil hne
    have he := h.homed e (by rw [hl]; exact List.mem_cons_self)
    have hslot := (h.buffered.head hl).2
    have hsent : s.node.noc1Sent csm i = (e.slot.homeidVal || s.node.csm.ghidVal e.slot.ticket) := by
      simp [Node.noc1Sent, State.noc1Sent, Node.gated, hack, hreq, Node.homeidVal, hslot, hrtl]
    rw [hsent, hslot]
    rw [Homed] at he
    cases hval : e.slot.homeidVal with
    | true => exact .inl rfl
    | false =>
        rw [hval] at he
        obtain ⟨address, -, hunder | ⟨hghid, -⟩⟩ := he
        · exact .inr ⟨_, hunder, rfl⟩
        · exact .inl hghid

/-- Along every run in which the steps are proper, each command leaves once, in order and with the
home of its request. -/
theorem home_translation (hrtl : csm.rtlCsm = true) (hen : csm.csmEn = true)
    (h : Machine.Reaches Init (step cfg csm table) (Proper cfg csm table) s) : Translated csm s :=
  (h.invariant (P := Kept cfg csm table) (fun _ hi => hi.kept) fun _ _ hk hp => hk.step hrtl hen hp).translated hrtl

/-- A home map table in which line 16 has one home. -/
def oneLine : Nat → HmtLine := fun tag => if tag = 16 then hmtLine 0x8000000180000002 0 else fun _ => 0

/-- The load whose home comes from the table leaves after the answer to its refill. -/
theorem home_translation_oneMiss :
    Translated Refills.lowOrder (Machine.run (step .default Refills.lowOrder oneLine) reset Refills.oneMiss) ∧
      (Machine.run (step .default Refills.lowOrder oneLine) reset Refills.oneMiss).sent.map Prod.snd =
        [{ chip := 0, y := 0, x := 2 }] :=
  ⟨home_translation rfl rfl ((Machine.Reaches.start init_reset).run (by decide +kernel)), by decide +kernel⟩

/-- A load from a page whose home is the tile at `y` 1 and `x` 2. -/
def globalLoad : List RefillsInput :=
  let load : PcxReq := { rqtype := .load, address := 0x1000 }
  [{ node := { l15 := { pcx := some load }, pcxCsm := ⟨0x100000102⟩ } }, {}, {}, {}, {}, {}]

/-- A global page has no lookup, so that no home comes in: the load never leaves. -/
theorem home_not_translated :
    Machine.Meets (step .default Refills.lowOrder oneLine)
        (fun s i => Refills.Orderly .default Refills.lowOrder s.refills i) reset globalLoad ∧
      ¬ Translated Refills.lowOrder (Machine.run (step .default Refills.lowOrder oneLine) reset globalLoad) := by
  refine ⟨by decide +kernel, ?_⟩
  intro h
  exact absurd (h.ready (by decide +kernel) {} rfl) (by decide +kernel)

end Homes

end OpenPiton.Home
