import OpenPiton.NocAxi.Buffer
import OpenPiton.Lib.Machine
import OpenPiton.Lib.Ring

namespace OpenPiton.NocAxi

namespace BufferCfg

variable (c : BufferCfg) (h : Header)

theorem depth_pos : 0 < c.depth := Nat.two_pow_pos _

theorem digit_lt {a b m n : Nat} (ha : a < m) (hb : b < n) : a * n + b < m * n :=
  calc a * n + b < a * n + n := Nat.add_lt_add_left hb _
    _ = (a + 1) * n := (Nat.succ_mul a n).symm
    _ ≤ m * n := Nat.mul_le_mul_right n ha

theorem reqId_lt : c.reqId h < 2 ^ c.numReqThreadsLog2 := by
  have hm := Nat.mod_lt (h.msgMshrid.toNat / 2 ^ c.numReqMshridLbit) (Nat.two_pow_pos c.numReqMshridBits)
  have hy := Nat.mod_lt h.msgSrcY.toNat (Nat.two_pow_pos c.numReqYthreadsLog2)
  have hx := Nat.mod_lt h.msgSrcX.toNat (Nat.two_pow_pos c.numReqXthreadsLog2)
  have hyx := digit_lt hy hx
  rw [← Nat.pow_add] at hyx
  have hlog : c.numReqThreadsLog2 =
      c.numReqMshridBits + (c.numReqYthreadsLog2 + c.numReqXthreadsLog2) := Nat.add_comm _ _
  rw [reqId, Nat.add_assoc, hlog, Nat.pow_add 2 c.numReqMshridBits]
  exact digit_lt hm hyx

theorem axiId_eq : c.axiId h = c.reqId h := by
  refine Nat.mod_eq_of_lt ((c.reqId_lt h).trans_le ?_)
  exact Nat.pow_le_pow_right (by decide) c.threads_le

theorem respThread_axiId : c.respThread h.command (c.axiId h) = c.thread h := by
  rw [respThread, thread, c.axiId_eq, Nat.mod_eq_of_lt (c.reqId_lt h)]

theorem fullId_inj {command command' : Bool} {id id' : Nat} (hid : id < 2 ^ c.numReqThreadsLog2)
    (hid' : id' < 2 ^ c.numReqThreadsLog2) :
    c.fullId command id = c.fullId command' id' ↔
      id = id' ∧ (c.rdwrInorder = true ∨ command = command') := by
  unfold fullId
  cases c.rdwrInorder <;> cases command <;> cases command' <;> simp <;> omega

/-- Two requests are of one thread when they have the AXI id in common and, without `RDWR_INORDER`,
the direction. -/
theorem thread_eq_iff (h' : Header) :
    c.thread h = c.thread h' ↔
      c.axiId h = c.axiId h' ∧ (c.rdwrInorder = true ∨ h.command = h'.command) := by
  rw [axiId_eq, axiId_eq]
  exact c.fullId_inj (c.reqId_lt h) (c.reqId_lt h')

theorem thread_respThread {command : Bool} {id : Nat} (ht : c.thread h = c.respThread command id)
    (hc : c.rdwrInorder = true → h.command = command) : h.command = command := by
  rcases ((c.fullId_inj (c.reqId_lt h) (Nat.mod_lt _ (Nat.two_pow_pos _))).mp ht).2 with hi | hi
  · exact hc hi
  · exact hi

end BufferCfg

/-- The buffer with the requests it took from the deserializer, those it issued to the AXI slave,
the headers it handed to the serializer with the responses of a thread, and the responses the slave
keeps presented. -/
structure Exchange where
  buf : Buffer
  received : List Header := []
  issued : List Header := []
  answered : Nat → List Header := fun _ => []
  heldRd : Option Nat := none
  heldWr : Option Nat := none

namespace Exchange

variable (c : BufferCfg) (s : Exchange) (i : BufferIn)

def requests (t : Nat) : List Header := s.issued.filter fun h => c.thread h = t

/-- The requests of a thread that wait for their response, oldest first. -/
def unanswered (t : Nat) : List Header := (s.requests c t).drop (s.answered t).length

def step : Exchange where
  buf := s.buf.step c i
  received := if s.buf.deserGo i then s.received ++ i.deser.toList else s.received
  issued := if s.buf.reqGo c i then s.issued ++ [s.buf.reqHeader] else s.issued
  answered t := match s.buf.taken c i with
    | some (command, id) =>
        if c.respThread command id = t then s.answered t ++ [s.buf.serHeader c] else s.answered t
    | none => s.answered t
  heldRd := if s.buf.readRespRdy c i then none else i.readResp
  heldWr := if s.buf.writeRespRdy c i then none else i.writeResp

/-- An AXI slave answers requests it accepted and keeps a response presented until it is taken. -/
structure Presents : Prop where
  read : ∀ id ∈ i.readResp,
    ∃ h ∈ s.unanswered c (c.respThread false id), h.command = false ∧ c.axiId h = id
  write : ∀ id ∈ i.writeResp,
    ∃ h ∈ s.unanswered c (c.respThread true id), h.command = true ∧ c.axiId h = id
  heldRd : ∀ id ∈ s.heldRd, i.readResp = some id
  heldWr : ∀ id ∈ s.heldWr, i.writeResp = some id

instance : Decidable (s.Presents c i) :=
  decidable_of_iff
    ((∀ id ∈ i.readResp, ∃ h ∈ s.unanswered c (c.respThread false id), h.command = false ∧ c.axiId h = id) ∧
      (∀ id ∈ i.writeResp, ∃ h ∈ s.unanswered c (c.respThread true id), h.command = true ∧ c.axiId h = id) ∧
      (∀ id ∈ s.heldRd, i.readResp = some id) ∧ ∀ id ∈ s.heldWr, i.writeResp = some id)
    ⟨fun h => ⟨h.1, h.2.1, h.2.2.1, h.2.2.2⟩, fun h => ⟨h.read, h.write, h.heldRd, h.heldWr⟩⟩

/-- Reset leaves the memory of outstanding requests and its read ports as they are. -/
def Init : Prop :=
  ∃ command mem dataA dataB rd wr, s = { buf := {
    outstndCommand := command
    outstndReqMem := mem
    ramDataA := dataA
    ramDataB := dataB
    absRdptrMemRd := rd
    absWrptrMemRd := wr } }

end Exchange

/-- A request without its response: the slot that keeps its header. -/
structure Outstanding where
  slot : Nat
  header : Header

/-- The registers of the buffer keep the requests `q t` of each thread. -/
structure Queues (c : BufferCfg) (b : Buffer) (q : Nat → List Outstanding) : Prop where
  vrt_eq : ∀ t, b.vrtWrptrs t = (b.vrtRdptrs t + (q t).length) % 2 ^ (c.numReqOutstandingLog2 + 1)
  vrt_lt : ∀ t, b.vrtRdptrs t < 2 ^ (c.numReqOutstandingLog2 + 1)
  abs_lt : ∀ t, b.absRdptrs t < c.depth
  wr_lt : b.absWrptr < c.depth
  stored : ∀ t k e, (q t)[k]? = some e →
    b.outstndReqMem e.slot = ⟨(b.vrtRdptrs t + k) % c.depth, true, e.header⟩
  thread : ∀ t, ∀ e ∈ q t, c.thread e.header = t ∧ e.slot < c.depth
  nodup : ∀ t, ((q t).map Outstanding.slot).Nodup
  occupied : ∀ k < c.depth, (b.outstndReqMem k).occup = true →
    (b.initOutstndMem = true → k < b.absRdptr) → ∃ t, ∃ e ∈ q t, e.slot = k
  found : ∀ t, b.absRdptrsVal t = true →
    ∃ e rest, q t = e :: rest ∧ b.absRdptrs t = e.slot ∧ b.outstndCommand t = e.header.command
  others : ∀ t, t ≠ b.fullRespId → q t ≠ [] → b.absRdptrsVal t = true
  searched : b.absRdptrVal = false → q b.fullRespId ≠ [] → (b.storHeader c).occup = true →
    b.storHeader c = b.outstndReqMem b.absRdptr
  read : b.storHdrVal = true → b.respVal = true → b.storHeader c = b.outstndReqMem b.absRdptr
  free : b.initOutstndMem = false → (b.cleanHeader c).occup = false →
    (b.outstndReqMem b.absWrptr).occup = false
  init : b.initOutstndMem = true → b.fullRespId = 0 ∧ b.respVal = false ∧ ∀ t, q t = []

namespace Queues

variable {c : BufferCfg} {b : Buffer} {q : Nat → List Outstanding} {i : BufferIn}

theorem length_le (h : Queues c b q) (t : Nat) : (q t).length ≤ c.depth := by
  have hsub : (q t).map Outstanding.slot ⊆ List.range c.depth := by
    intro k hk
    obtain ⟨e, he, rfl⟩ := List.mem_map.mp hk
    exact List.mem_range.mpr (h.thread t e he).2
  simpa using ((h.nodup t).subperm hsub).length_le

theorem vrtEmpt_iff (h : Queues c b q) (t : Nat) : b.vrtEmpt t = true ↔ q t = [] := by
  have hlen := h.length_le t
  have hlt := h.vrt_lt t
  have hpow : 2 ^ (c.numReqOutstandingLog2 + 1) = 2 * c.depth := by rw [Nat.pow_succ, BufferCfg.depth, Nat.mul_comm]
  have hpos := c.depth_pos
  rw [Buffer.vrtEmpt, beq_iff_eq, h.vrt_eq t, ← List.length_eq_zero_iff]
  rw [hpow] at hlt ⊢
  constructor
  · intro he
    by_contra hne
    have := Ring.add_mod_inj (a := b.vrtRdptrs t) (n := 2 * c.depth) (i := 0) (j := (q t).length)
      (by omega) (by omega) (by rw [Nat.add_zero, Nat.mod_eq_of_lt hlt]; exact he)
    omega
  · intro he
    rw [he, Nat.add_zero, Nat.mod_eq_of_lt hlt]

theorem slot_inj (h : Queues c b q) {t t' : Nat} {e e' : Outstanding} (he : e ∈ q t) (he' : e' ∈ q t')
    (hs : e.slot = e'.slot) : t = t' := by
  obtain ⟨k, hk⟩ := List.mem_iff_getElem?.mp he
  obtain ⟨k', hk'⟩ := List.mem_iff_getElem?.mp he'
  have hm := h.stored t k e hk
  rw [hs, h.stored t' k' e' hk'] at hm
  have hheader : e'.header = e.header := congrArg Slot.header hm
  rw [← (h.thread t e he).1, ← (h.thread t' e' he').1, hheader]

theorem occup (h : Queues c b q) {t : Nat} {e : Outstanding} (he : e ∈ q t) :
    (b.outstndReqMem e.slot).occup = true := by
  obtain ⟨k, hk⟩ := List.mem_iff_getElem?.mp he
  rw [h.stored t k e hk]

theorem head_of_vrt (h : Queues c b q) {t : Nat} {e : Outstanding} (he : e ∈ q t)
    (hv : (b.outstndReqMem e.slot).vrt = b.vrtRdptrs t % c.depth) : ∃ rest, q t = e :: rest := by
  obtain ⟨k, hk⟩ := List.mem_iff_getElem?.mp he
  have hlt : k < (q t).length := (List.getElem?_eq_some_iff.mp hk).1
  have hlen := h.length_le t
  rw [h.stored t k e hk] at hv
  have hk0 : k = 0 := Ring.add_mod_inj (a := b.vrtRdptrs t) (n := c.depth) (by omega) c.depth_pos hv
  subst k
  cases hq : q t with
  | nil => rw [hq] at hk; cases hk
  | cons e' rest => rw [hq] at hk; cases hk; exact ⟨rest, rfl⟩

theorem scan_found (h : Queues c b q) (hempt : b.vrtEmpt b.fullRespId = false) (hval : b.absRdptrVal = false)
    (hfound : b.vrtRdptrVal c = true) :
    ∃ e rest, q b.fullRespId = e :: rest ∧ b.absRdptr = e.slot ∧ b.storCommand c = e.header.command := by
  have hinit : b.initOutstndMem = false := by
    by_contra hne
    have := (h.vrtEmpt_iff b.fullRespId).mpr ((h.init (by simpa using hne)).2.2 _)
    simp [hempt] at this
  have hne : q b.fullRespId ≠ [] := fun he => by simp [(h.vrtEmpt_iff _).mpr he] at hempt
  simp only [Buffer.vrtRdptrVal, Bool.and_eq_true, beq_iff_eq] at hfound
  obtain ⟨⟨hvrt, hthread⟩, hocc⟩ := hfound
  have hstor := h.searched hval hne hocc
  rw [hstor] at hvrt hthread hocc
  obtain ⟨t, e, he, hslot⟩ := h.occupied b.absRdptr (h.abs_lt _) hocc (by simp [hinit])
  obtain ⟨k, hk⟩ := List.mem_iff_getElem?.mp he
  have hmem := h.stored t k e hk
  rw [← hslot, hmem] at hthread
  have ht : t = b.fullRespId := by rw [hthread]; exact (h.thread t e he).1.symm
  subst t
  obtain ⟨rest, hq⟩ := h.head_of_vrt he (by rw [hslot]; exact hvrt.symm)
  refine ⟨e, rest, hq, hslot.symm, ?_⟩
  rw [Buffer.storCommand, hstor, ← hslot, hmem]

/-- When the serializer takes a packet, its header is that of the oldest request of the thread. -/
theorem ser_head (h : Queues c b q) (hgo : b.serGo i = true) :
    ∃ e rest, q b.fullRespId = e :: rest ∧ b.absRdptr = e.slot ∧ b.serHeader c = e.header ∧
      b.outstndCommand b.fullRespId = e.header.command := by
  simp only [Buffer.serGo, Buffer.serVal, Buffer.storHdrEn, Bool.and_eq_true] at hgo
  obtain ⟨⟨⟨hhdr, hval⟩, hresp⟩, -⟩ := hgo
  obtain ⟨e, rest, hq, hslot, hcmd⟩ := h.found _ hval
  refine ⟨e, rest, hq, hslot, ?_, hcmd⟩
  rw [Buffer.serHeader, h.read hhdr hresp, Buffer.absRdptr, hslot, h.stored _ 0 e (by rw [hq]; rfl)]

end Queues

namespace Buffer

variable (c : BufferCfg) (b : Buffer) (i : BufferIn)

/-- A packet for the serializer ends the oldest request of its thread. -/
def served (q : Nat → List Outstanding) (t : Nat) : List Outstanding :=
  if t = b.fullRespId ∧ b.serGo i then (q t).tail else q t

/-- A request on an AXI channel goes to the end of its thread. -/
def nextQueues (q : Nat → List Outstanding) (t : Nat) : List Outstanding :=
  b.served i q t ++ if t = b.fullReqId c ∧ b.reqGo c i then [⟨b.absWrptr, b.reqHeader⟩] else []

variable {c b i}

theorem reqGo_spec (h : b.reqGo c i = true) :
    b.reqVal = true ∧ (b.cleanHeader c).occup = false ∧ b.initOutstndMem = false := by
  simp only [reqGo, readReqVal, writeReqVal, reqOccup, Bool.or_eq_true, Bool.and_eq_true,
    Bool.not_eq_true'] at h
  tauto

theorem serGo_spec (h : b.serGo i = true) :
    b.storHdrVal = true ∧ b.absRdptrVal = true ∧ b.respVal = true := by
  simp only [serGo, serVal, storHdrEn, Bool.and_eq_true] at h
  exact ⟨h.1.1.1, h.1.1.2, h.1.2⟩

end Buffer

namespace Queues

variable {c : BufferCfg} {b : Buffer} {q : Nat → List Outstanding} {i : BufferIn}

theorem absRdptrMem_lt : b.absRdptrMem c < c.depth := Nat.mod_lt _ c.depth_pos

theorem absRdptrMem_eq (h : Queues c b q) (hs : b.absRdptrVal = true ∨ q b.fullRespId = []) :
    b.absRdptrMem c = b.absRdptr := by
  have hlt : b.absRdptr < c.depth := h.abs_lt _
  rcases hs with hs | hs
  · simp [Buffer.absRdptrMem, hs, Nat.mod_eq_of_lt hlt]
  · simp [Buffer.absRdptrMem, (h.vrtEmpt_iff _).mpr hs, Nat.mod_eq_of_lt hlt]

theorem absWrptrMem_eq (h : Queues c b q) (hgo : b.reqGo c i = true) : b.absWrptrMem c = b.absWrptr := by
  obtain ⟨-, hocc, -⟩ := Buffer.reqGo_spec hgo
  simp [Buffer.absWrptrMem, Buffer.reqOccup, hocc, Nat.mod_eq_of_lt h.wr_lt]

/-- A cycle clears the slot at the read pointer, with a packet for the serializer or after reset, and
writes the slot at the write pointer with a request. -/
theorem mem_step (h : Queues c b q) (k : Nat) :
    (b.step c i).outstndReqMem k =
      if k = b.absWrptr ∧ b.reqGo c i then b.saveHeader c
      else if k = b.absRdptr ∧ (b.serGo i || b.initOutstndMem) then {}
      else b.outstndReqMem k := by
  have hrd : (b.serGo i || b.initOutstndMem) = true → b.absRdptrMem c = b.absRdptr := by
    intro hor
    refine h.absRdptrMem_eq ?_
    rcases Bool.or_eq_true _ _ ▸ hor with hser | hinit
    · exact .inl (Buffer.serGo_spec hser).2.1
    · exact .inr ((h.init hinit).2.2 _)
  simp only [Buffer.step]
  by_cases hreq : b.reqGo c i = true
  · by_cases hor : (b.serGo i || b.initOutstndMem) = true
    · simp [hreq, hor, h.absWrptrMem_eq hreq, hrd hor, Function.update_apply]
    · simp [hreq, hor, h.absWrptrMem_eq hreq, Function.update_apply]
  · by_cases hor : (b.serGo i || b.initOutstndMem) = true
    · simp [hreq, hor, hrd hor, Function.update_apply]
    · simp [hreq, hor]

theorem ne_absWrptr (h : Queues c b q) (hgo : b.reqGo c i = true) {k : Nat}
    (hocc : (b.outstndReqMem k).occup = true) : k ≠ b.absWrptr := by
  obtain ⟨-, hclean, hinit⟩ := Buffer.reqGo_spec hgo
  intro hk
  rw [hk, h.free hinit hclean] at hocc
  cases hocc

/-- Occupied slots keep their content unless their packet goes to the serializer. -/
theorem mem_kept (h : Queues c b q) {k : Nat} (hocc : (b.outstndReqMem k).occup = true)
    (hser : (b.serGo i || b.initOutstndMem) = true → k ≠ b.absRdptr) :
    (b.step c i).outstndReqMem k = b.outstndReqMem k := by
  rw [h.mem_step, if_neg (fun hw => h.ne_absWrptr hw.2 hocc hw.1), if_neg (fun hr => hser hr.2 hr.1)]

theorem free_kept (h : Queues c b q) {k : Nat} (hfree : (b.outstndReqMem k).occup = false)
    (hreq : ¬(k = b.absWrptr ∧ b.reqGo c i = true)) : ((b.step c i).outstndReqMem k).occup = false := by
  rw [h.mem_step, if_neg hreq]
  split
  · rfl
  · exact hfree

theorem served_subset {t : Nat} {e : Outstanding} (he : e ∈ b.served i q t) : e ∈ q t := by
  unfold Buffer.served at he
  split at he
  · exact List.mem_of_mem_tail he
  · exact he

/-- Of the entries of a thread only the one at the read pointer goes. -/
theorem mem_served (h : Queues c b q) {t : Nat} {e : Outstanding} (he : e ∈ q t) :
    e ∈ b.served i q t ↔ ¬(e.slot = b.absRdptr ∧ b.serGo i = true) := by
  by_cases hser : b.serGo i = true
  · obtain ⟨e₀, rest, hq, hslot, -, -⟩ := h.ser_head hser
    have he₀ : e₀ ∈ q b.fullRespId := by rw [hq]; exact List.mem_cons_self
    have hnd := h.nodup b.fullRespId
    rw [hq, List.map_cons, List.nodup_cons] at hnd
    by_cases ht : t = b.fullRespId
    · subst t
      rw [Buffer.served, if_pos ⟨rfl, hser⟩, hq, List.tail_cons, hslot]
      rw [hq] at he
      constructor
      · rintro hmem ⟨hs, -⟩
        exact hnd.1 (List.mem_map.mpr ⟨e, hmem, hs⟩)
      · intro hne
        rcases List.mem_cons.mp he with rfl | he
        · exact absurd ⟨rfl, hser⟩ hne
        · exact he
    · rw [Buffer.served, if_neg (fun hp => ht hp.1)]
      refine ⟨fun _ hs => ht (h.slot_inj he he₀ (hs.1.trans hslot)), fun _ => he⟩
  · simp [Buffer.served, hser, he]

theorem served_slot (h : Queues c b q) {t : Nat} {e : Outstanding} (he : e ∈ b.served i q t) :
    (b.step c i).outstndReqMem e.slot = b.outstndReqMem e.slot := by
  have hmem := served_subset he
  refine h.mem_kept (h.occup hmem) fun hor hs => ?_
  rcases Bool.or_eq_true _ _ ▸ hor with hser | hinit
  · exact (h.mem_served hmem).mp he ⟨hs, hser⟩
  · rw [(h.init hinit).2.2 t] at hmem
    cases hmem

/-- The place of an entry in its thread moves with the virtual read pointer. -/
theorem served_get (h : Queues c b q) {t k : Nat} {e : Outstanding} (he : (b.served i q t)[k]? = some e) :
    (b.step c i).outstndReqMem e.slot =
      ⟨((b.step c i).vrtRdptrs t + k) % c.depth, true, e.header⟩ := by
  have hdvd : c.depth ∣ 2 ^ (c.numReqOutstandingLog2 + 1) := Nat.pow_dvd_pow 2 (Nat.le_succ _)
  rw [h.served_slot (List.mem_iff_getElem?.mpr ⟨k, he⟩)]
  by_cases hpop : t = b.fullRespId ∧ b.serGo i = true
  · rw [Buffer.served, if_pos hpop, List.getElem?_tail] at he
    rw [h.stored _ _ _ he]
    congr 1
    simp only [Buffer.step, if_pos hpop]
    rw [Nat.add_mod ((_ + 1) % _), Nat.mod_mod_of_dvd _ hdvd, ← Nat.add_mod]
    congr 1; omega
  · rw [Buffer.served, if_neg hpop] at he
    rw [h.stored _ _ _ he]
    simp only [Buffer.step, if_neg hpop]

theorem served_length (h : Queues c b q) (t : Nat) :
    b.vrtWrptrs t =
      ((b.step c i).vrtRdptrs t + (b.served i q t).length) % 2 ^ (c.numReqOutstandingLog2 + 1) := by
  rw [h.vrt_eq t]
  by_cases hpop : t = b.fullRespId ∧ b.serGo i = true
  · obtain ⟨e₀, rest, hq, -⟩ := h.ser_head hpop.2
    rw [← hpop.1] at hq
    simp only [Buffer.step, Buffer.served, if_pos hpop, hq, List.tail_cons, List.length_cons, Nat.mod_add_mod]
    congr 1; omega
  · simp only [Buffer.step, Buffer.served, if_neg hpop]

theorem push_slot (h : Queues c b q) (hgo : b.reqGo c i = true) :
    (b.step c i).outstndReqMem b.absWrptr =
      ⟨((b.step c i).vrtRdptrs (b.fullReqId c) + (b.served i q (b.fullReqId c)).length) % c.depth, true,
        b.reqHeader⟩ := by
  have hdvd : c.depth ∣ 2 ^ (c.numReqOutstandingLog2 + 1) := Nat.pow_dvd_pow 2 (Nat.le_succ _)
  rw [h.mem_step, if_pos ⟨rfl, hgo⟩, Buffer.saveHeader, h.served_length (i := i), Nat.mod_mod_of_dvd _ hdvd]

theorem next_get (h : Queues c b q) {t k : Nat} {e : Outstanding} (he : (b.nextQueues c i q t)[k]? = some e) :
    (b.step c i).outstndReqMem e.slot =
      ⟨((b.step c i).vrtRdptrs t + k) % c.depth, true, e.header⟩ := by
  rw [Buffer.nextQueues] at he
  rcases Nat.lt_or_ge k (b.served i q t).length with hlt | hge
  · exact h.served_get (by rwa [List.getElem?_append_left hlt] at he)
  · rw [List.getElem?_append_right hge] at he
    split at he
    next hpush =>
      obtain ⟨rfl, hgo⟩ := hpush
      have hlt := (List.getElem?_eq_some_iff.mp he).1
      rw [List.length_singleton] at hlt
      rw [show k = (b.served i q (b.fullReqId c)).length by omega, Nat.sub_self] at he
      cases he
      rw [h.push_slot hgo]
      congr 2; omega
    next => cases he

theorem next_thread (h : Queues c b q) (hthread : b.reqGo c i = true → b.fullReqId c = c.thread b.reqHeader)
    {t : Nat} {e : Outstanding} (he : e ∈ b.nextQueues c i q t) : c.thread e.header = t ∧ e.slot < c.depth := by
  rcases List.mem_append.mp he with hold | hnew
  · exact h.thread t e (served_subset hold)
  · by_cases hpush : t = b.fullReqId c ∧ b.reqGo c i = true
    · rw [if_pos hpush] at hnew
      cases List.mem_singleton.mp hnew
      rw [hpush.1]
      exact ⟨(hthread hpush.2).symm, h.wr_lt⟩
    · rw [if_neg hpush] at hnew
      cases hnew

theorem next_nodup (h : Queues c b q) (t : Nat) : ((b.nextQueues c i q t).map Outstanding.slot).Nodup := by
  have hsub : (b.served i q t).Sublist (q t) := by
    unfold Buffer.served
    split
    · exact List.tail_sublist _
    · exact List.Sublist.refl _
  have hserved := (hsub.map Outstanding.slot).nodup (h.nodup t)
  rw [Buffer.nextQueues, List.map_append]
  refine hserved.append (by split <;> simp) ?_
  intro k hk hk'
  split at hk'
  next hpush =>
    obtain ⟨e, he, rfl⟩ := List.mem_map.mp hk
    exact h.ne_absWrptr hpush.2 (h.occup (served_subset he)) (by simpa using hk')
  next => cases hk'

theorem init_clears (h : Queues c b q) (hinit : b.initOutstndMem = true) {k : Nat} (hk : k < c.depth)
    (hclear : k ≠ b.absRdptr)
    (hnext : (b.step c i).initOutstndMem = true → k < (b.step c i).absRdptr) : k < b.absRdptr := by
  obtain ⟨hid, -, -⟩ := h.init hinit
  have hid' : (b.step c i).fullRespId = b.fullRespId := by simp [Buffer.step, hinit, hid]
  by_cases hlast : b.absRdptr = c.depth - 1
  · omega
  · have hlt := hnext (by simp [Buffer.step, hlast, hinit])
    rw [Buffer.absRdptr, hid'] at hlt
    simp only [Buffer.step, hinit, and_self, if_true] at hlt
    have := Nat.mod_le (b.absRdptr + 1) c.depth
    omega

theorem next_occupied (h : Queues c b q) {k : Nat} (hk : k < c.depth)
    (hocc : ((b.step c i).outstndReqMem k).occup = true)
    (hnext : (b.step c i).initOutstndMem = true → k < (b.step c i).absRdptr) :
    ∃ t, ∃ e ∈ b.nextQueues c i q t, e.slot = k := by
  rw [h.mem_step] at hocc
  split at hocc
  next hpush =>
    obtain ⟨rfl, hgo⟩ := hpush
    exact ⟨b.fullReqId c, ⟨b.absWrptr, b.reqHeader⟩, by simp [Buffer.nextQueues, hgo], rfl⟩
  next hpush =>
    split at hocc
    next => cases hocc
    next hclear =>
      have hold : b.initOutstndMem = true → k < b.absRdptr := fun hinit =>
        h.init_clears hinit hk (fun he => hclear ⟨he, by simp [hinit]⟩) hnext
      obtain ⟨t, e, he, rfl⟩ := h.occupied k hk hocc hold
      refine ⟨t, e, List.mem_append_left _ ((h.mem_served he).mpr ?_), rfl⟩
      rintro ⟨hs, hser⟩
      exact hclear ⟨hs, by simp [hser]⟩

theorem next_head {t : Nat} {e : Outstanding} {rest : List Outstanding}
    (hq : q t = e :: rest) (hser : ¬(t = b.fullRespId ∧ b.serGo i = true)) :
    ∃ rest', b.nextQueues c i q t = e :: rest' := by
  rw [Buffer.nextQueues, Buffer.served, if_neg hser, hq, List.cons_append]
  exact ⟨_, rfl⟩

/-- Where a read pointer is valid it stays at its request until the packet goes. -/
theorem found_kept (h : Queues c b q) {t : Nat} (hval : b.absRdptrsVal t = true)
    (hser : ¬(t = b.fullRespId ∧ b.serGo i = true)) :
    (b.step c i).absRdptrsVal t = true ∧ (b.step c i).absRdptrs t = b.absRdptrs t ∧
      (b.step c i).outstndCommand t = b.outstndCommand t := by
  obtain ⟨e, rest, hq, -, -⟩ := h.found t hval
  have hempt : b.vrtEmpt t = false := by
    rw [← Bool.not_eq_true, h.vrtEmpt_iff, hq]
    exact List.cons_ne_nil _ _
  have hinit : b.initOutstndMem = false := by
    rw [← Bool.not_eq_true]
    intro hi
    simp [(h.init hi).2.2 t] at hq
  refine ⟨by simp only [Buffer.step, if_neg hser, hval, ite_self], ?_, ?_⟩
  · by_cases ht : t = b.fullRespId
    · subst t
      simp [Buffer.step, hinit, hempt, h.absRdptrMem_eq (.inl hval), Buffer.absRdptr]
    · simp [Buffer.step, ht, hempt]
  · by_cases ht : t = b.fullRespId
    · subst t
      simp [Buffer.step, hempt, Buffer.absRdptrVal, hval]
    · simp [Buffer.step, ht, hempt]

theorem next_found (h : Queues c b q)
    (hcmd : b.reqGo c i = true → b.reqCommand = b.reqHeader.command) {t : Nat}
    (hval : (b.step c i).absRdptrsVal t = true) :
    ∃ e rest, b.nextQueues c i q t = e :: rest ∧ (b.step c i).absRdptrs t = e.slot ∧
      (b.step c i).outstndCommand t = e.header.command := by
  by_cases hser : t = b.fullRespId ∧ b.serGo i = true
  · simp [Buffer.step, hser] at hval
  by_cases hold : b.absRdptrsVal t = true
  · obtain ⟨-, hrd, hc⟩ := h.found_kept (i := i) hold hser
    obtain ⟨e, rest, hq, hslot, hcommand⟩ := h.found t hold
    obtain ⟨rest', hq'⟩ := next_head (c := c) hq hser
    exact ⟨e, rest', hq', hrd.trans hslot, hc.trans hcommand⟩
  rw [Bool.not_eq_true] at hold
  by_cases hscan : t = b.fullRespId ∧ b.vrtEmpt t = false ∧ b.vrtRdptrVal c = true
  · obtain ⟨rfl, hempt, hfound⟩ := hscan
    obtain ⟨e, rest, hq, hslot, hcommand⟩ := h.scan_found hempt hold hfound
    obtain ⟨rest', hq'⟩ := next_head (c := c) hq hser
    have hinit : b.initOutstndMem = false := by
      rw [← Bool.not_eq_true]
      intro hi
      simp [(h.init hi).2.2] at hq
    refine ⟨e, rest', hq', ?_, ?_⟩
    · have hlt : b.absRdptr < c.depth := h.abs_lt _
      rw [hslot] at hlt
      simp [Buffer.step, hinit, hempt, Buffer.absRdptrMem, hfound, hslot, Nat.mod_eq_of_lt hlt]
    · simp [Buffer.step, hempt, Buffer.absRdptrVal, hold, hfound, hcommand]
  -- the pointer of an empty thread is set by its request
  have hpush : t = b.fullReqId c ∧ b.reqGo c i = true ∧ b.vrtEmpt t = true := by
    by_contra hno
    have hscan' : ¬(t = b.fullRespId ∧ b.vrtEmpt t = false ∧ b.absRdptrVal = false ∧ b.vrtRdptrVal c = true) :=
      fun hs => hscan ⟨hs.1, hs.2.1, hs.2.2.2⟩
    simp only [Buffer.step, if_neg hser, Bool.not_eq_true', hscan', hno, if_false, hold] at hval
    cases hval
  obtain ⟨rfl, hgo, hempt⟩ := hpush
  obtain ⟨-, -, hinit⟩ := Buffer.reqGo_spec hgo
  have hq := (h.vrtEmpt_iff _).mp hempt
  refine ⟨⟨b.absWrptr, b.reqHeader⟩, [], ?_, ?_, ?_⟩
  · simp [Buffer.nextQueues, Buffer.served, hq, hgo]
  · simp [Buffer.step, hinit, hempt, hgo]
  · simp [Buffer.step, hempt, hgo, hcmd hgo]

/-- The thread at hand changes only where its queue is empty or its oldest request found. -/
theorem next_others (h : Queues c b q)
    (hkeep : b.respVal = true → (b.step c i).fullRespId = b.fullRespId) {t : Nat}
    (ht : t ≠ (b.step c i).fullRespId) (hq : b.nextQueues c i q t ≠ []) :
    (b.step c i).absRdptrsVal t = true := by
  have hser : ¬(t = b.fullRespId ∧ b.serGo i = true) := by
    rintro ⟨rfl, hser⟩
    exact ht (hkeep (Buffer.serGo_spec hser).2.2).symm
  by_cases hold : q t = []
  · have hpush : t = b.fullReqId c ∧ b.reqGo c i = true := by
      by_contra hno
      simp [Buffer.nextQueues, Buffer.served, hser, hold, hno] at hq
    obtain ⟨rfl, hgo⟩ := hpush
    simp only [Buffer.step, if_neg hser]
    split
    · rfl
    · simp [hgo, (h.vrtEmpt_iff _).mpr hold]
  · by_cases hr : t = b.fullRespId
    · subst t
      have hempt : b.vrtEmpt b.fullRespId = false := by rwa [← Bool.not_eq_true, h.vrtEmpt_iff]
      have hval : b.absRdptrVal = true := by
        by_contra hno
        rw [Bool.not_eq_true] at hno
        have hinit : b.initOutstndMem = false := by
          rw [← Bool.not_eq_true]
          exact fun hi => hold ((h.init hi).2.2 _)
        exact ht (by simp [Buffer.step, hinit, hempt, hno])
      exact (h.found_kept hval hser).1
    · exact (h.found_kept (h.others t hr hold) hser).1

/-- What the memory shows at the read pointer after a cycle, unless that slot is free. -/
theorem storHeader_step (h : Queues c b q) (hocc : ((b.step c i).storHeader c).occup = true) :
    (b.step c i).storHeader c = (b.step c i).outstndReqMem (b.absRdptrMem c) := by
  cases hram : c.outstandQueueBram with
  | false => simp [Buffer.storHeader, hram, Buffer.step]
  | true =>
      have hstor : (b.step c i).storHeader c =
          if b.serGo i || b.initOutstndMem then {} else b.outstndReqMem (b.absRdptrMem c) := by
        simp [Buffer.storHeader, hram, Buffer.step]
      rw [hstor] at hocc ⊢
      split at hocc
      next => cases hocc
      next hno => rw [if_neg hno, h.mem_kept hocc (fun hor => absurd hor hno)]

theorem next_searched (h : Queues c b q)
    (hval : (b.step c i).absRdptrVal = false) (hq : b.nextQueues c i q (b.step c i).fullRespId ≠ [])
    (hocc : ((b.step c i).storHeader c).occup = true) :
    (b.step c i).storHeader c = (b.step c i).outstndReqMem (b.step c i).absRdptr := by
  rw [h.storHeader_step hocc]
  congr 1
  have hid : (b.step c i).fullRespId = b.fullRespId := by
    by_contra hne
    have hser : ¬((b.step c i).fullRespId = b.fullRespId ∧ b.serGo i = true) := fun hs => hne hs.1
    by_cases hold : q (b.step c i).fullRespId = []
    · have hpush : (b.step c i).fullRespId = b.fullReqId c ∧ b.reqGo c i = true := by
        by_contra hno
        simp [Buffer.nextQueues, Buffer.served, hser, hold, hno] at hq
      have hset : (b.step c i).absRdptrsVal (b.fullReqId c) = true := by
        rw [hpush.1] at hser hold
        simp only [Buffer.step, if_neg hser]
        split
        · rfl
        · simp [hpush.2, (h.vrtEmpt_iff _).mpr hold]
      rw [Buffer.absRdptrVal, hpush.1, hset] at hval
      cases hval
    · have hset := (h.found_kept (i := i) (h.others _ hne hold) hser).1
      rw [Buffer.absRdptrVal, hset] at hval
      cases hval
  rw [Buffer.absRdptr, hid]
  rw [hid] at hq
  have hold : q b.fullRespId ≠ [] := by
    intro hold
    have hpush : b.fullRespId = b.fullReqId c ∧ b.reqGo c i = true := by
      by_contra hno
      simp [Buffer.nextQueues, Buffer.served, hold, hno] at hq
    have hser : b.serGo i = false := by
      rw [← Bool.not_eq_true]
      intro hser
      obtain ⟨e, rest, hq, -⟩ := h.ser_head hser
      simp [hold] at hq
    rw [Buffer.absRdptrVal, hid] at hval
    simp [Buffer.step, hser, ← hpush.1, hpush.2, (h.vrtEmpt_iff _).mpr hold] at hval
  have hempt : b.vrtEmpt b.fullRespId = false := by rwa [← Bool.not_eq_true, h.vrtEmpt_iff]
  have hinit : b.initOutstndMem = false := by
    rw [← Bool.not_eq_true]
    exact fun hi => hold ((h.init hi).2.2 _)
  simp [Buffer.step, hinit, hempt]

theorem next_read (h : Queues c b q)
    (hkeep : b.respVal = true → (b.step c i).fullRespId = b.fullRespId)
    (hhdr : (b.step c i).storHdrVal = true) (hresp : (b.step c i).respVal = true) :
    (b.step c i).storHeader c = (b.step c i).outstndReqMem (b.step c i).absRdptr := by
  simp only [Buffer.step, Bool.and_eq_true] at hhdr
  obtain ⟨hval, hresp'⟩ := hhdr
  have hgo : ¬(b.initOutstndMem = true ∨ b.serGo i = true) := by
    intro hor
    simp [Buffer.step, hor] at hresp
  have hser : ¬(b.fullRespId = b.fullRespId ∧ b.serGo i = true) := fun hs => hgo (.inr hs.2)
  obtain ⟨e, rest, hq, hslot, -⟩ := h.found _ hval
  have hmem : e ∈ q b.fullRespId := by rw [hq]; exact List.mem_cons_self
  have hkept : (b.step c i).outstndReqMem e.slot = b.outstndReqMem e.slot :=
    h.mem_kept (h.occup hmem) fun hor => absurd (by simpa [or_comm] using hor) hgo
  rw [Buffer.absRdptr, hkeep hresp', (h.found_kept hval hser).2.1, hslot, hkept]
  have hrd : b.absRdptrMem c = e.slot := (h.absRdptrMem_eq (.inl hval)).trans hslot
  cases hram : c.outstandQueueBram with
  | false => simp only [Buffer.storHeader, hram, Bool.false_eq_true, if_false]; rw [← hkept, ← hrd]; rfl
  | true =>
      have hno : (b.serGo i || b.initOutstndMem) = false := by
        simpa [and_comm] using hgo
      simp [Buffer.storHeader, hram, Buffer.step, hno, hrd]

theorem next_free (h : Queues c b q) (hclean : ((b.step c i).cleanHeader c).occup = false) :
    ((b.step c i).outstndReqMem (b.step c i).absWrptr).occup = false := by
  cases hram : c.outstandQueueBram with
  | false => simpa [Buffer.cleanHeader, hram, Buffer.step] using hclean
  | true =>
      have hdata : (b.step c i).cleanHeader c =
          if b.reqGo c i then b.saveHeader c else b.outstndReqMem (b.absWrptrMem c) := by
        simp [Buffer.cleanHeader, hram, Buffer.step]
      rw [hdata] at hclean
      split at hclean
      next => cases hclean
      next hno => exact h.free_kept hclean (fun hp => hno hp.2)

theorem next_init (h : Queues c b q) (hinit : (b.step c i).initOutstndMem = true) :
    (b.step c i).fullRespId = 0 ∧ (b.step c i).respVal = false ∧ ∀ t, b.nextQueues c i q t = [] := by
  have hold : b.initOutstndMem = true := by
    simp only [Buffer.step] at hinit
    split at hinit
    · cases hinit
    · exact hinit
  obtain ⟨-, hresp, hq⟩ := h.init hold
  have hreq : b.reqGo c i = false := by
    rw [← Bool.not_eq_true]
    intro hgo
    rw [(Buffer.reqGo_spec hgo).2.2] at hold
    cases hold
  exact ⟨by simp [Buffer.step, hold], by simp [Buffer.step, hold],
    fun t => by simp [Buffer.nextQueues, Buffer.served, hq, hreq]⟩

theorem step (h : Queues c b q)
    (hkeep : b.respVal = true → (b.step c i).fullRespId = b.fullRespId)
    (hthread : b.reqGo c i = true → b.fullReqId c = c.thread b.reqHeader)
    (hcmd : b.reqGo c i = true → b.reqCommand = b.reqHeader.command) :
    Queues c (b.step c i) (b.nextQueues c i q) where
  vrt_eq := by
    intro t
    have hserved := h.served_length (i := i) t
    by_cases hpush : t = b.fullReqId c ∧ b.reqGo c i = true
    · rw [Buffer.nextQueues, if_pos hpush, List.length_append, List.length_singleton, ← Nat.add_assoc,
        ← Nat.mod_add_mod, ← hserved]
      simp only [Buffer.step, if_pos hpush]
    · rw [Buffer.nextQueues, if_neg hpush, List.append_nil, ← hserved]
      simp only [Buffer.step, if_neg hpush]
  vrt_lt := by
    intro t
    simp only [Buffer.step]
    split
    · exact Nat.mod_lt _ (Nat.two_pow_pos _)
    · exact h.vrt_lt t
  abs_lt := by
    intro t
    simp only [Buffer.step]
    split
    · exact Nat.mod_lt _ c.depth_pos
    split
    · exact absRdptrMem_lt
    split
    · exact h.wr_lt
    · exact h.abs_lt t
  wr_lt := Nat.mod_lt _ c.depth_pos
  stored := fun t k e he => h.next_get he
  thread := fun t e he => h.next_thread hthread he
  nodup := h.next_nodup
  occupied := fun k hk hocc hnext => h.next_occupied hk hocc hnext
  found := fun t hval => h.next_found hcmd hval
  others := fun t ht hq => h.next_others hkeep ht hq
  searched := h.next_searched
  read := h.next_read hkeep
  free := fun _ => h.next_free
  init := h.next_init

end Queues

end OpenPiton.NocAxi
