import OpenPiton.NocAxi.Matching

namespace OpenPiton.NocAxi

namespace Buffer

variable {c : BufferCfg} {b : Buffer} {i : BufferIn}

/-- The queue of packets after a cycle. -/
def nextWaiting (c : BufferCfg) (b : Buffer) (i : BufferIn) (waiting : List Header) : List Header :=
  (if b.reqGo c i then waiting.tail else waiting) ++ if b.deserGo i then i.deser.toList else []

theorem deserGo_spec (h : b.deserGo i = true) :
    ∃ header, i.deser = some header ∧ b.pktStateBuf b.fifoIn = false := by
  simp only [deserGo, deserRdy, Bool.and_eq_true, Bool.not_eq_true'] at h
  obtain ⟨header, hd⟩ := Option.isSome_iff_exists.mp h.1
  exact ⟨header, hd, h.2⟩

theorem respRdy_eq :
    b.readRespRdy c i = (b.serGo i && !b.storCommand c) ∧ b.writeRespRdy c i = (b.serGo i && b.storCommand c) :=
  ⟨rfl, rfl⟩

end Buffer

/-- The packets that wait in the buffer are those received and not issued. -/
structure Waits (s : Exchange) (waiting : List Header) : Prop where
  fifo : Ring.Holds 2 s.buf.pktHeader s.buf.pktStateBuf s.buf.fifoOut s.buf.fifoIn waiting
  received : s.received = s.issued ++ waiting
  command : ∀ k, s.buf.pktCommand k = (s.buf.pktHeader k).command
  valid : s.buf.reqVal = true → waiting ≠ []

namespace Waits

variable {c : BufferCfg} {s : Exchange} {i : BufferIn} {waiting : List Header}

theorem head (h : Waits s waiting) (hgo : s.buf.reqGo c i = true) :
    ∃ rest, waiting = s.buf.reqHeader :: rest := by
  have hne := h.valid (Buffer.reqGo_spec hgo).1
  obtain ⟨header, rest, rfl⟩ := List.exists_cons_of_ne_nil hne
  exact ⟨rest, by rw [Buffer.reqHeader, h.fifo.head]⟩

theorem reqCommand (h : Waits s waiting) : s.buf.reqCommand = s.buf.reqHeader.command := h.command _

theorem step (h : Waits s waiting) : Waits (s.step c i) (s.buf.nextWaiting c i waiting) where
  fifo := by
    have hput : s.buf.deserGo i = true → s.buf.pktStateBuf s.buf.fifoIn = false := fun hd =>
      (Buffer.deserGo_spec hd).choose_spec.2
    have htake : s.buf.reqGo c i = true → waiting ≠ [] := fun hr => h.valid (Buffer.reqGo_spec hr).1
    have hcycle := h.fifo.cycle htake hput (i.deser.getD ⟨0, 0, 0⟩)
    have hnext : s.buf.nextWaiting c i waiting = (if s.buf.reqGo c i then waiting.tail else waiting) ++
        if s.buf.deserGo i then [i.deser.getD ⟨0, 0, 0⟩] else [] := by
      unfold Buffer.nextWaiting
      congr 1
      split
      next hd =>
        obtain ⟨header, hdeser, -⟩ := Buffer.deserGo_spec hd
        simp [hdeser]
      next => rfl
    rw [hnext]
    exact hcycle
  received := by
    simp only [Exchange.step, Buffer.nextWaiting]
    by_cases hreq : s.buf.reqGo c i = true
    · obtain ⟨rest, rfl⟩ := h.head hreq
      by_cases hdes : s.buf.deserGo i = true <;> simp [hreq, hdes, h.received]
    · by_cases hdes : s.buf.deserGo i = true <;> simp [hreq, hdes, h.received]
  command := by
    intro k
    simp only [Exchange.step, Buffer.step]
    split
    · rfl
    · exact h.command k
  valid := by
    intro hval
    simp only [Exchange.step, Buffer.step, Bool.and_eq_true, Bool.not_eq_true'] at hval
    simp [Buffer.nextWaiting, hval.2, h.fifo.val_rd.mp hval.1]

end Waits

/-- A thread has the requests that were answered, then those in its queue. -/
def Answers (c : BufferCfg) (s : Exchange) (q : Nat → List Outstanding) : Prop :=
  ∀ t, s.requests c t = s.answered t ++ (q t).map Outstanding.header

theorem Answers.unanswered_eq {c : BufferCfg} {s : Exchange} {q : Nat → List Outstanding}
    (h : Answers c s q) (t : Nat) : s.unanswered c t = (q t).map Outstanding.header := by
  rw [Exchange.unanswered, h t, List.drop_left]

namespace BufferIn

variable (i : BufferIn)

/-- The response presented in a direction. -/
def resp (command : Bool) : Option Nat := if command then i.writeResp else i.readResp

end BufferIn

namespace Exchange

variable (s : Exchange)

def held (command : Bool) : Option Nat := if command then s.heldWr else s.heldRd

theorem held_step (c : BufferCfg) (i : BufferIn) (command : Bool) :
    (s.step c i).held command =
      if s.buf.serGo i ∧ s.buf.storCommand c = command then none else i.resp command := by
  cases command with
  | false => simp [held, step, BufferIn.resp, Buffer.respRdy_eq.1]
  | true => simp [held, step, BufferIn.resp, Buffer.respRdy_eq.2]

end Exchange

namespace Exchange.Presents

variable {c : BufferCfg} {s : Exchange} {i : BufferIn}

theorem resp (h : s.Presents c i) {command : Bool} {id : Nat} (hr : i.resp command = some id) :
    ∃ header ∈ s.unanswered c (c.respThread command id), header.command = command ∧ c.axiId header = id := by
  cases command with
  | false => exact h.read id hr
  | true => exact h.write id hr

theorem held (h : s.Presents c i) {command : Bool} {id : Nat} (hr : s.held command = some id) :
    i.resp command = some id := by
  cases command with
  | false => exact h.heldRd id hr
  | true => exact h.heldWr id hr

end Exchange.Presents

/-- The response worked on is presented, and its direction is that of the oldest request of its
thread. -/
structure Selected (c : BufferCfg) (s : Exchange) : Prop where
  valid : s.buf.respVal = true → s.buf.absRdptrVal = true
  held : s.buf.respVal = true → ∃ command id, s.held command = some id ∧
    c.respThread command id = s.buf.fullRespId ∧
    (c.rdwrInorder = true → s.buf.outstndCommand s.buf.fullRespId = command)

namespace Buffer

variable {c : BufferCfg} {b : Buffer} {i : BufferIn}

/-- The responses that may be worked on, by direction. -/
def act (c : BufferCfg) (b : Buffer) (i : BufferIn) (command : Bool) : Option Nat :=
  b.respAct c command (i.resp command)

theorem act_eq_some {command : Bool} {t : Nat} :
    b.act c i command = some t ↔ ∃ id, i.resp command = some id ∧ c.respThread command id = t ∧
      (c.rdwrInorder = true → b.outstndCommand t = command ∧ b.absRdptrsVal t = true) := by
  simp only [act, respAct, Option.filter_eq_some_iff, Option.map_eq_some_iff, Bool.or_eq_true,
    Bool.and_eq_true, Bool.not_eq_true', beq_iff_eq]
  constructor
  · rintro ⟨⟨id, hid, ht⟩, hor⟩
    refine ⟨id, hid, ht, fun hin => ?_⟩
    simpa [hin] using hor
  · rintro ⟨id, hid, ht, hin⟩
    refine ⟨⟨id, hid, ht⟩, ?_⟩
    cases hio : c.rdwrInorder with
    | false => exact .inl rfl
    | true => exact .inr (hin hio)

theorem fullRespIdNext_keep {command : Bool} (h : b.act c i command = some b.fullRespId) :
    b.fullRespIdNext c i = b.fullRespId := by
  unfold fullRespIdNext
  cases command with
  | false =>
      have hrd : b.rdAct c i = some b.fullRespId := h
      rw [hrd]
      cases b.wrAct c i <;> simp +contextual
  | true =>
      have hwr : b.wrAct c i = some b.fullRespId := h
      rw [hwr]
      cases b.rdAct c i <;> simp +contextual

theorem fullRespIdNext_act (h : ((b.rdAct c i).isSome || (b.wrAct c i).isSome) = true) :
    ∃ command, b.act c i command = some (b.fullRespIdNext c i) := by
  unfold fullRespIdNext
  cases hrd : b.rdAct c i with
  | none =>
      cases hwr : b.wrAct c i with
      | none => simp [hrd, hwr] at h
      | some wr => exact ⟨true, hwr⟩
  | some rd =>
      cases hwr : b.wrAct c i with
      | none => exact ⟨false, hrd⟩
      | some wr =>
          by_cases heq : b.fullRespId = wr
          · refine ⟨true, ?_⟩
            simp only [heq, if_true, ite_self]
            exact hwr
          · refine ⟨false, ?_⟩
            simp only [heq, if_false]
            exact hrd

end Buffer

namespace Selected

variable {c : BufferCfg} {s : Exchange} {i : BufferIn} {q : Nat → List Outstanding}

theorem act (h : Selected c s) (hp : s.Presents c i) (hresp : s.buf.respVal = true) :
    ∃ command, s.buf.act c i command = some s.buf.fullRespId := by
  obtain ⟨command, id, hheld, ht, hin⟩ := h.held hresp
  exact ⟨command, Buffer.act_eq_some.mpr ⟨id, hp.held hheld, ht, fun hio => ⟨hin hio, h.valid hresp⟩⟩⟩

theorem keep (h : Selected c s) (hp : s.Presents c i) (hq : Queues c s.buf q)
    (hresp : s.buf.respVal = true) : (s.buf.step c i).fullRespId = s.buf.fullRespId := by
  obtain ⟨command, hact⟩ := h.act hp hresp
  have hinit : s.buf.initOutstndMem = false := by
    rw [← Bool.not_eq_true]
    intro hi
    rw [(hq.init hi).2.1] at hresp
    cases hresp
  simp [Buffer.step, hinit, h.valid hresp, Buffer.fullRespIdNext_keep hact]

/-- A response for a request that waits has its thread's oldest request found, when the thread is
taken on. -/
theorem val_of_act (hq : Queues c s.buf q) (ha : Answers c s q) (hp : s.Presents c i)
    {command : Bool} {t : Nat} (hact : s.buf.act c i command = some t)
    (hsel : s.buf.vrtEmpt s.buf.fullRespId = true ∨ s.buf.absRdptrVal = true) :
    s.buf.absRdptrsVal t = true := by
  obtain ⟨id, hid, ht, -⟩ := Buffer.act_eq_some.mp hact
  obtain ⟨header, hmem, -⟩ := hp.resp hid
  have hne : q t ≠ [] := by
    rw [ht, ha.unanswered_eq] at hmem
    intro he
    simp [he] at hmem
  by_cases htr : t = s.buf.fullRespId
  · rcases hsel with hempt | hval
    · rw [hq.vrtEmpt_iff, ← htr] at hempt
      exact absurd hempt hne
    · rw [htr]
      exact hval
  · exact hq.others t htr hne

theorem step (h : Selected c s) (hp : s.Presents c i) (hq : Queues c s.buf q) (ha : Answers c s q) :
    Selected c (s.step c i) := by
  have main : (s.buf.step c i).respVal = true → s.buf.serGo i = false ∧
      ∃ command, s.buf.act c i command = some (s.buf.step c i).fullRespId ∧
        s.buf.absRdptrsVal (s.buf.step c i).fullRespId = true ∧
        (c.rdwrInorder = true → s.buf.outstndCommand (s.buf.step c i).fullRespId = command) := by
    intro hresp
    have hgo : s.buf.initOutstndMem = false ∧ s.buf.serGo i = false := by
      by_contra hno
      have : s.buf.initOutstndMem = true ∨ s.buf.serGo i = true := by
        cases hi : s.buf.initOutstndMem <;> cases hs : s.buf.serGo i <;> simp_all
      simp [Buffer.step, this] at hresp
    refine ⟨hgo.2, ?_⟩
    by_cases hold : s.buf.respVal = true
    · obtain ⟨command, hact⟩ := h.act hp hold
      rw [h.keep hp hq hold]
      refine ⟨command, hact, h.valid hold, fun hio => ?_⟩
      obtain ⟨id, -, -, hin⟩ := Buffer.act_eq_some.mp hact
      exact (hin hio).1
    · have hset : (s.buf.vrtEmpt s.buf.fullRespId || s.buf.absRdptrVal) = true ∧
          ((s.buf.rdAct c i).isSome || (s.buf.wrAct c i).isSome) = true := by
        by_contra hno
        simp only [Buffer.step, hgo.1, hgo.2, Bool.or_self, Bool.false_eq_true, if_false, Bool.and_eq_true,
          hno, hold] at hresp
      obtain ⟨command, hact⟩ := Buffer.fullRespIdNext_act hset.2
      have hid : (s.buf.step c i).fullRespId = s.buf.fullRespIdNext c i := by
        simp only [Buffer.step, hgo.1, Bool.false_eq_true, if_false, hset.1, if_true]
      rw [hid]
      refine ⟨command, hact, val_of_act hq ha hp hact (by simpa using hset.1), fun hio => ?_⟩
      obtain ⟨id, -, -, hin⟩ := Buffer.act_eq_some.mp hact
      exact (hin hio).1
  constructor
  · intro hresp
    obtain ⟨hgo, command, hact, hval, -⟩ := main hresp
    exact (hq.found_kept (i := i) hval (by simp [hgo])).1
  · intro hresp
    obtain ⟨hgo, command, hact, hval, hin⟩ := main hresp
    obtain ⟨id, hid, ht, -⟩ := Buffer.act_eq_some.mp hact
    refine ⟨command, id, ?_, ht, fun hio => ?_⟩
    · rw [Exchange.held_step, hgo]
      simpa using hid
    · exact (hq.found_kept (i := i) hval (by simp [hgo])).2.2.trans (hin hio)

end Selected

/-- Everything a run keeps: the packets that wait, the requests under way and the response at hand. -/
structure Matched (c : BufferCfg) (s : Exchange) (waiting : List Header) (q : Nat → List Outstanding) : Prop where
  waits : Waits s waiting
  queues : Queues c s.buf q
  answers : Answers c s q
  selected : Selected c s

namespace Matched

variable {c : BufferCfg} {s : Exchange} {i : BufferIn} {waiting : List Header} {q : Nat → List Outstanding}

theorem thread (h : Matched c s waiting q) : s.buf.fullReqId c = c.thread s.buf.reqHeader := by
  rw [Buffer.fullReqId, h.waits.reqCommand, BufferCfg.thread]

/-- A packet goes to the serializer together with a response of its thread and its direction. -/
theorem taken (h : Matched c s waiting q) (hp : s.Presents c i) (hgo : s.buf.serGo i = true) :
    ∃ command id e rest, s.buf.taken c i = some (command, id) ∧
      c.respThread command id = s.buf.fullRespId ∧ q s.buf.fullRespId = e :: rest ∧
      s.buf.serHeader c = e.header ∧ e.header.command = command := by
  obtain ⟨e, rest, hq, -, hser, hcmd⟩ := h.queues.ser_head hgo
  obtain ⟨command, id, hheld, ht, hin⟩ := h.selected.held (Buffer.serGo_spec hgo).2.2
  have hthread := (h.queues.thread _ e (by rw [hq]; exact List.mem_cons_self)).1
  have hcommand : e.header.command = command :=
    c.thread_respThread e.header (hthread.trans ht.symm) fun hio => hcmd.symm.trans (hin hio)
  have hstor : s.buf.storCommand c = command := by
    rw [← hcommand, ← hser]
    rfl
  have hresp := hp.held hheld
  refine ⟨command, id, e, rest, ?_, ht, hq, hser, hcommand⟩
  rw [Buffer.taken, Buffer.respRdy_eq.1, Buffer.respRdy_eq.2, hgo, hstor]
  cases command with
  | false => simp [show i.readResp = some id from hresp]
  | true => simp [show i.writeResp = some id from hresp]

theorem taken_none (hgo : s.buf.serGo i = false) : s.buf.taken c i = none := by
  simp [Buffer.taken, Buffer.respRdy_eq.1, Buffer.respRdy_eq.2, hgo]

theorem answers_step (h : Matched c s waiting q) (hp : s.Presents c i) :
    Answers c (s.step c i) (s.buf.nextQueues c i q) := by
  intro t
  have hissued : (s.step c i).requests c t =
      s.requests c t ++ if t = s.buf.fullReqId c ∧ s.buf.reqGo c i = true then [s.buf.reqHeader] else [] := by
    rw [h.thread]
    by_cases hreq : s.buf.reqGo c i = true
    · by_cases ht : c.thread s.buf.reqHeader = t
      · simp [Exchange.requests, Exchange.step, hreq, ht, List.filter_append]
      · simp [Exchange.requests, Exchange.step, hreq, ht, Ne.symm ht, List.filter_append]
    · simp [Exchange.requests, Exchange.step, hreq]
  have hserved : s.answered t ++ (q t).map Outstanding.header =
      (s.step c i).answered t ++ (s.buf.served i q t).map Outstanding.header := by
    by_cases hser : s.buf.serGo i = true
    · obtain ⟨command, id, e, rest, htaken, hr, hq, hheader, -⟩ := h.taken hp hser
      by_cases ht : t = s.buf.fullRespId
      · subst t
        simp [Exchange.step, Buffer.served, htaken, hr, hq, hser, hheader]
      · simp [Exchange.step, Buffer.served, htaken, hr, ht, Ne.symm ht]
    · simp [Exchange.step, Buffer.served, hser, taken_none (by simpa using hser)]
  rw [hissued, h.answers t, hserved, Buffer.nextQueues, List.map_append, List.append_assoc]
  congr 2
  split <;> simp

theorem step (h : Matched c s waiting q) (hp : s.Presents c i) :
    Matched c (s.step c i) (s.buf.nextWaiting c i waiting) (s.buf.nextQueues c i q) where
  waits := h.waits.step
  queues := h.queues.step (h.selected.keep hp h.queues) (fun _ => h.thread) fun _ => h.waits.reqCommand
  answers := h.answers_step hp
  selected := h.selected.step hp h.queues h.answers

theorem init (h : s.Init) : Matched c s [] fun _ => [] := by
  obtain ⟨command, mem, dataA, dataB, rd, wr, rfl⟩ := h
  refine ⟨⟨Ring.Holds.empty (by decide), rfl, fun _ => show false = Header.command ⟨0, 0, 0⟩ by decide, by simp⟩, ?_,
    fun t => by simp [Exchange.requests],
    ⟨by simp, by simp⟩⟩
  exact {
    vrt_eq := by simp
    vrt_lt := fun _ => Nat.two_pow_pos _
    abs_lt := fun _ => c.depth_pos
    wr_lt := c.depth_pos
    stored := by simp
    thread := by simp
    nodup := by simp
    occupied := fun k _ _ hk => by simp [Buffer.absRdptr] at hk
    found := by simp
    others := by simp
    searched := by simp
    read := by simp
    free := by simp
    init := by simp }

theorem of_reaches (hr : Machine.Reaches Exchange.Init (Exchange.step c) (Exchange.Presents c) s) :
    ∃ waiting q, Matched c s waiting q :=
  hr.invariant (P := fun s => ∃ waiting q, Matched c s waiting q) (fun _ h => ⟨_, _, init h⟩)
    fun _ _ ⟨_, _, h⟩ hp => ⟨_, _, h.step hp⟩

end Matched

/-- In every run with an AXI slave that answers each thread in order, a packet handed to the
serializer has the header of the oldest unanswered request of the thread whose response is taken in
that cycle, and no response is taken without a packet. -/
theorem responses_matched {c : BufferCfg} {s : Exchange} {i : BufferIn}
    (hr : Machine.Reaches Exchange.Init (Exchange.step c) (Exchange.Presents c) s) (hp : s.Presents c i) :
    (s.buf.taken c i).isSome = s.buf.serGo i ∧
    (s.buf.serGo i = true → ∃ command id header rest, s.buf.taken c i = some (command, id) ∧
      s.unanswered c (c.respThread command id) = header :: rest ∧ s.buf.serHeader c = header ∧
      header.command = command) ∧
    (s.buf.reqGo c i = true → s.buf.reqCommand = s.buf.reqHeader.command) ∧
    (∀ t, s.answered t <+: s.requests c t) ∧ s.issued <+: s.received := by
  obtain ⟨waiting, q, h⟩ := Matched.of_reaches hr
  refine ⟨?_, ?_, fun _ => h.waits.reqCommand, fun t => ⟨_, (h.answers t).symm⟩, ⟨_, h.waits.received.symm⟩⟩
  · cases hgo : s.buf.serGo i with
    | false => rw [Matched.taken_none hgo]; rfl
    | true =>
        obtain ⟨command, id, e, rest, htaken, -⟩ := h.taken hp hgo
        rw [htaken]
        rfl
  · intro hgo
    obtain ⟨command, id, e, rest, htaken, ht, hq, hser, hcmd⟩ := h.taken hp hgo
    refine ⟨command, id, e.header, rest.map Outstanding.header, htaken, ?_, hser, hcmd⟩
    rw [ht, h.answers.unanswered_eq, hq, List.map_cons]

section Run

def twoTiles : BufferCfg := ⟨1, 0, 0, 0, 1, false, false, Nat.one_pos, by decide⟩

def afterReset : Exchange where
  buf := {
    outstndCommand := fun _ => false
    outstndReqMem := fun _ => {}
    ramDataA := {}
    ramDataB := {} }

/-- A load and a store of one tile, where the store is answered first. -/
def storeFirst : List BufferIn :=
  [{ deser := some ⟨19 <<< 14, 0, 1 <<< 42⟩ }, { deser := some ⟨20 <<< 14, 0, 1 <<< 42⟩ }, {}, {}, {}, {}, {},
    { writeResp := some 1 }, { writeResp := some 1 }]

theorem storeFirst_matched :
    ∃ s : Exchange, s.buf.serGo { writeResp := some 1 } = true ∧
      ∃ command id header rest, s.buf.taken twoTiles { writeResp := some 1 } = some (command, id) ∧
        s.unanswered twoTiles (twoTiles.respThread command id) = header :: rest ∧
        s.buf.serHeader twoTiles = header ∧ header.command = command := by
  have hinit : afterReset.Init := ⟨_, _, _, _, _, _, rfl⟩
  have hmeets : Machine.Meets (Exchange.step twoTiles) (Exchange.Presents twoTiles) afterReset storeFirst := by
    decide +kernel
  have hp : (Machine.run (Exchange.step twoTiles) afterReset storeFirst).Presents twoTiles
      { writeResp := some 1 } := by decide +kernel
  have hgo : (Machine.run (Exchange.step twoTiles) afterReset storeFirst).buf.serGo
      { writeResp := some 1 } = true := by decide +kernel
  have hr := (Machine.Reaches.start hinit).run hmeets
  exact ⟨_, hgo, (responses_matched hr hp).2.1 hgo⟩

end Run

end OpenPiton.NocAxi
