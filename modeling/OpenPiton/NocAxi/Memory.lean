import OpenPiton.NocAxi.Accesses

namespace OpenPiton.NocAxi

namespace Exchange

/-- The requests of an id and a direction that wait for their response. -/
def pending (c : BufferCfg) (s : Exchange) (command : Bool) (x : Nat) : List Header :=
  (s.unanswered c (c.respThread command x)).filter fun h => h.command == command && c.axiId h == x

variable {c : BufferCfg} {s : Exchange} {i : BufferIn} {waiting : List Header} {q : Nat → List Outstanding}

theorem mem_pending {command : Bool} {x : Nat} {h : Header} (hm : h ∈ s.pending c command x) :
    h ∈ s.unanswered c (c.respThread command x) ∧ h.command = command ∧ c.axiId h = x := by
  simpa [pending] using hm

theorem taken_resp {command : Bool} {id : Nat} (ht : s.buf.taken c i = some (command, id)) :
    i.resp command = some id := by
  rw [Buffer.taken] at ht
  split at ht
  · obtain ⟨id', hid, heq⟩ := Option.map_eq_some_iff.mp ht
    obtain ⟨rfl, rfl⟩ := Prod.mk.inj heq
    exact hid
  split at ht
  · obtain ⟨id', hid, heq⟩ := Option.map_eq_some_iff.mp ht
    obtain ⟨rfl, rfl⟩ := Prod.mk.inj heq
    exact hid
  · cases ht

/-- The packet handed over is the one that has waited longest in its id and direction, and a request
issued goes to the end. -/
theorem pending_step (h : Matched c s waiting q) (hp : s.Presents c i) (command : Bool) (x : Nat) :
    (if s.buf.taken c i = some (command, x) then [s.buf.serHeader c] else []) ++ (s.step c i).pending c command x =
      s.pending c command x ++
        if s.buf.reqGo c i = true ∧ s.buf.reqHeader.command = command ∧ c.axiId s.buf.reqHeader = x then
          [s.buf.reqHeader] else [] := by
  have hinp : ((if c.respThread command x = s.buf.fullReqId c ∧ s.buf.reqGo c i = true then
        [s.buf.reqHeader] else []).filter fun h => h.command == command && c.axiId h == x) =
      if s.buf.reqGo c i = true ∧ s.buf.reqHeader.command = command ∧ c.axiId s.buf.reqHeader = x then
        [s.buf.reqHeader] else [] := by
    by_cases hin : s.buf.reqHeader.command = command ∧ c.axiId s.buf.reqHeader = x
    · have hthread : c.respThread command x = s.buf.fullReqId c := by
        rw [h.thread, ← c.respThread_axiId, hin.1, hin.2]
      by_cases hgo : s.buf.reqGo c i = true <;> simp [hgo, hthread, hin]
    · have hnot : ¬ (s.buf.reqGo c i = true ∧ s.buf.reqHeader.command = command ∧ c.axiId s.buf.reqHeader = x) :=
        fun hc => hin hc.2
      rw [if_neg hnot]
      split
      · exact List.filter_eq_nil_iff.mpr (by simpa using hin)
      · rfl
  have hserved : (if s.buf.taken c i = some (command, x) then [s.buf.serHeader c] else []) ++
        ((s.buf.served i q (c.respThread command x)).map Outstanding.header).filter
          (fun h => h.command == command && c.axiId h == x) =
      ((q (c.respThread command x)).map Outstanding.header).filter
        fun h => h.command == command && c.axiId h == x := by
    by_cases hgo : s.buf.serGo i = true
    · obtain ⟨command', id, e, rest, htaken, hthread, hq, hser, hcmd⟩ := h.taken hp hgo
      obtain ⟨header, hmem, hcmd', hid⟩ := hp.resp (taken_resp htaken)
      rw [hthread, h.answers.unanswered_eq, List.mem_map] at hmem
      obtain ⟨e', he', rfl⟩ := hmem
      have haxi : c.axiId e.header = id := by
        have he := (h.queues.thread _ e (by rw [hq]; exact List.mem_cons_self)).1
        rw [← hid]
        exact ((c.thread_eq_iff _ _).mp (he.trans (h.queues.thread _ e' he').1.symm)).1
      rw [htaken, hser]
      by_cases ht : c.respThread command x = s.buf.fullRespId
      · have hrest : s.buf.served i q (c.respThread command x) = rest := by
          rw [Buffer.served, if_pos ⟨ht, hgo⟩, ht, hq]
          rfl
        rw [hrest, ht, hq, List.map_cons]
        by_cases hin : command' = command ∧ id = x
        · rw [if_pos (by rw [hin.1, hin.2]), List.filter_cons_of_pos (by simp [hcmd, haxi, hin])]
          rfl
        · rw [if_neg (by simpa using hin), List.filter_cons_of_neg (by simpa [hcmd, haxi] using hin)]
          rfl
      · have hkeep : s.buf.served i q (c.respThread command x) = q (c.respThread command x) :=
          if_neg fun hc => ht hc.1
        have hne : some (command', id) ≠ some (command, x) := by
          intro heq
          obtain ⟨rfl, rfl⟩ := Prod.mk.inj (Option.some.inj heq)
          exact ht hthread
        rw [hkeep, if_neg hne, List.nil_append]
    · have hkeep : s.buf.served i q (c.respThread command x) = q (c.respThread command x) :=
        if_neg fun hc => hgo hc.2
      rw [Matched.taken_none (by simpa using hgo), hkeep, if_neg (by simp), List.nil_append]
  rw [pending, pending, (h.step hp).answers.unanswered_eq, h.answers.unanswered_eq, Buffer.nextQueues, List.map_append,
    List.filter_append, ← List.append_assoc, hserved, ← hinp]
  congr 2
  split <;> rfl

end Exchange

/-- Two stages of a queue: what leaves the first comes from its front, and what moves between them
keeps its place. -/
theorem stages_append {α : Type*} {out first first' mid mid' mid'' last last'' input : List α}
    (hout : out ++ (first' ++ mid') = first ++ mid) (hmove : mid'' ++ last'' = mid' ++ last) :
    out ++ ((first' ++ mid'') ++ (last'' ++ input)) = ((first ++ mid) ++ last) ++ input :=
  calc out ++ ((first' ++ mid'') ++ (last'' ++ input)) = out ++ first' ++ (mid'' ++ last'') ++ input := by simp
    _ = out ++ (first' ++ mid') ++ last ++ input := by simp [hmove]
    _ = _ := by rw [hout]

namespace ReadPort

variable {w : Nat}

/-- The loads of an id that the memory has done, and those it has not. -/
def done (p : ReadPort w) (x : Nat) : List Header := (p.rs.filter fun d => d.id == x).map fun d => d.load.header

def waiting (p : ReadPort w) (x : Nat) : List Header := (p.ars x).map fun e => e.load.header

theorem execute_order (p : ReadPort w) (n id : Nat) (beats : List (BitVec (8 * 2 ^ w))) (x : Nat) :
    (p.execute n id beats).done x ++ (p.execute n id beats).waiting x = p.done x ++ p.waiting x := by
  unfold execute
  split
  next => rfl
  next e rest hars =>
    by_cases hid : id = x
    · subst hid
      simp [done, waiting, hars]
    · simp [done, waiting, hid, Function.update_of_ne (Ne.symm hid)]

end ReadPort

namespace AxiRead

/-- The load in the response registers, and the one in the request registers, by id. -/
def returned (r : AxiRead) (resp : Seen) (x : Nat) : List Header :=
  if r.respState = true ∧ r.respIdF = x then [resp.header] else []

def requested (r : AxiRead) (cur : Load) (x : Nat) : List Header :=
  if r.reqState = true ∧ r.arid = x then [cur.header] else []

end AxiRead

section

variable {c : BufferCfg} {a : AddrCfg} {m : Axi.Mem} {executed : List Request} {r : AxiRead}
  {p : ReadPort a.datWidthUsedLog2} {cur : Load} {resp : Seen} {i : ReadIn a.datWidthUsedLog2}

theorem LoadsBack.order (h : LoadsBack c a m executed r p resp) {valid : Bool}
    (hr : i.r = if valid then p.beat else none) (x : Nat) :
    (if r.respState = true ∧ i.respRdy = true ∧ r.respIdF = x then [resp.header] else []) ++
        ((r.step a i).returned
            (if (r.rgo a i).any ReadBeat.last then (p.rs.head?.map ReadData.load).getD resp else resp) x ++
          (if (r.rgo a i).isSome then p.answer else p).done x) =
      r.returned resp x ++ p.done x := by
  cases hgo : r.rgo a i with
  | none =>
      simp only [Option.any_none, Option.isSome_none, Bool.false_eq_true, if_false, ← List.append_assoc]
      congr 1
      cases hs : r.respState <;> cases hrdy : i.respRdy <;> simp [AxiRead.returned, AxiRead.step, hgo, hs, hrdy]
  | some beat =>
      obtain ⟨hs, hbeat⟩ := (r.rgo_eq_some a i).mp hgo
      rw [hr] at hbeat
      have hbeat : p.beat = some beat := by
        cases valid with
        | true => exact hbeat
        | false => cases hbeat
      obtain ⟨d, ds, hrs, -, hid, hlast, -, -⟩ := beat_spec h hbeat
      by_cases hend : p.sent + 1 = d.beats.length
      · have hl : beat.last = true := by simp [hlast, hend]
        by_cases hx : d.id = x
        · simp [AxiRead.returned, AxiRead.step, ReadPort.done, ReadPort.answer, hgo, hs, hrs, hl, hid, hend, hx]
        · simp [AxiRead.returned, AxiRead.step, ReadPort.done, ReadPort.answer, hgo, hs, hrs, hl, hid, hend, hx]
      · have hl : beat.last = false := by simp [hlast, hend]
        simp [AxiRead.returned, AxiRead.step, ReadPort.done, ReadPort.answer, hgo, hs, hrs, hl, hend]

theorem requests_order (r : AxiRead) (p : ReadPort a.datWidthUsedLog2) (i : ReadIn a.datWidthUsedLog2) (cur l : Load) (x : Nat) :
    (if r.argo a i then p.takeAr r.arid ⟨r.ar, cur⟩ else p).waiting x ++
        (r.step a i).requested (if (r.reqGo a i).isSome then l else cur) x =
      p.waiting x ++ r.requested cur x ++ if ∃ req, r.reqGo a i = some req ∧ req.id = x then [l.header] else [] := by
  cases hs : r.reqState with
  | false =>
      cases hgo : r.reqGo a i with
      | none => simp [AxiRead.argo, AxiRead.arvalid, AxiRead.requested, AxiRead.step, hs, hgo]
      | some req => simp [AxiRead.argo, AxiRead.arvalid, AxiRead.requested, AxiRead.step, hs, hgo]
  | true =>
      have hgo : r.reqGo a i = none := by simp [AxiRead.reqGo, AxiRead.reqRdy, hs]
      cases hrdy : i.arready with
      | false => simp [AxiRead.argo, AxiRead.arvalid, AxiRead.requested, AxiRead.step, hs, hgo, hrdy]
      | true =>
          by_cases hid : r.arid = x
          · subst hid
            simp [AxiRead.argo, AxiRead.arvalid, AxiRead.requested, AxiRead.step, ReadPort.waiting, ReadPort.takeAr,
              hs, hgo, hrdy]
          · simp [AxiRead.argo, AxiRead.arvalid, AxiRead.requested, AxiRead.step, ReadPort.waiting, ReadPort.takeAr,
              hs, hgo, hrdy, hid, Function.update_of_ne (Ne.symm hid)]

end

/-- The headers of the requests of an id. -/
def headersOf (c : BufferCfg) (x : Nat) (l : List Request) : List Header :=
  (l.filter fun st => c.axiId st.header == x).map Request.header

theorem headersOf_append (c : BufferCfg) (x : Nat) (l l' : List Request) :
    headersOf c x (l ++ l') = headersOf c x l ++ headersOf c x l' := by
  simp [headersOf]

/-- The stores that the memory has not done. -/
def AxiWrite.undone {n : Nat} (w : AxiWrite) (p : WritePort n) (cur : Request) : List Request :=
  p.aws.map WriteBurst.store ++ if w.awvalid then [cur] else []

/-- The store in the response register, by id. -/
def AxiWrite.returned (w : AxiWrite) (resp : Request) (x : Nat) : List Header :=
  if w.respState = true ∧ w.respIdF = x then [resp.header] else []

section

variable {c : BufferCfg} {a : AddrCfg} {m : Axi.Mem} {issued more : List Request} {w w' : AxiWrite}
  {p p' : WritePort a.datWidthUsedLog2} {cur cur' : Request} {done done' : List Request} {k k' : Nat}

theorem answers_order (a : AddrCfg) {n : Nat} (w : AxiWrite) (p : WritePort n) (resp : Request) {i : WriteIn}
    (hb : ∀ id ∈ i.b, p.bs id ≠ []) (x : Nat) :
    (if w.respState = true ∧ i.respRdy = true ∧ w.respIdF = x then [resp.header] else []) ++
        ((w.step a i).returned (match w.bgo i with
            | some id => (p.bs id).headD resp
            | none => resp) x ++
          ((match w.bgo i with
            | some id => p.answer id
            | none => p).bs x).map Request.header) =
      w.returned resp x ++ (p.bs x).map Request.header := by
  cases hgo : w.bgo i with
  | none =>
      simp only [← List.append_assoc]
      congr 1
      cases hs : w.respState <;> cases hrdy : i.respRdy <;> simp [AxiWrite.returned, AxiWrite.step, hgo, hs, hrdy]
  | some id =>
      obtain ⟨hs, hid⟩ : w.respState = false ∧ i.b = some id := by simpa [AxiWrite.bgo, AxiWrite.bready] using hgo
      obtain ⟨st, rest, hbs⟩ := List.exists_cons_of_ne_nil (hb id hid)
      by_cases hx : id = x
      · subst hx
        simp [AxiWrite.returned, AxiWrite.step, WritePort.answer, hgo, hs, hbs]
      · simp [AxiWrite.returned, AxiWrite.step, WritePort.answer, hgo, hs, hx, Function.update_of_ne (Ne.symm hx)]

theorem Stores.execute_order (h : Stores c a m issued w p cur done k) {e : WriteBurst} {rest : List WriteBurst}
    (haws : p.aws = e :: rest) (x : Nat) :
    (p.execute.bs x).map Request.header ++ headersOf c x (w.undone p.execute cur) =
      (p.bs x).map Request.header ++ headersOf c x (w.undone p cur) := by
  have hid := (h.bursts e (by rw [haws]; exact List.mem_cons_self)).id
  have hexec : p.execute.bs = Function.update p.bs e.id (p.bs e.id ++ [e.store]) ∧ p.execute.aws = rest := by
    rw [WritePort.execute, haws]
    exact ⟨rfl, rfl⟩
  rw [AxiWrite.undone, AxiWrite.undone, hexec.1, hexec.2, haws]
  by_cases hx : c.axiId e.store.header = x
  · rw [hid, hx, Function.update_self]
    simp [headersOf, hx]
  · rw [hid, Function.update_of_ne (Ne.symm hx)]
    simp [headersOf, hx]

/-- With the stores done as before, those not done follow those issued. -/
theorem Stores.undone_eq (h : Stores c a m issued w p cur done k)
    (h' : Stores c a m (issued ++ more) w' p' cur' done' k') (hexec : p'.executed = p.executed) :
    w'.undone p' cur' = w.undone p cur ++ more := by
  have horder := h.order
  have horder' := h'.order
  rw [hexec, ← horder, List.append_assoc, List.append_assoc, List.append_assoc, List.append_cancel_left_eq] at horder'
  rw [AxiWrite.undone, AxiWrite.undone, horder', List.append_assoc]

end

namespace Bridge

variable {c : BufferCfg} {a : AddrCfg} {m : Axi.Mem} {s : Bridge a.datWidthUsedLog2}
  {i : BridgeIn a.datWidthUsedLog2}

/-- The loads and the stores under way with an id, oldest first. -/
def loads (s : Bridge a.datWidthUsedLog2) (x : Nat) : List Header :=
  (s.rd.returned s.rdResp x ++ s.rp.done x) ++ (s.rp.waiting x ++ s.rd.requested s.rdReq x)

def stores (c : BufferCfg) (s : Bridge a.datWidthUsedLog2) (x : Nat) : List Header :=
  (s.wr.returned s.wrResp x ++ (s.wp.bs x).map Request.header) ++ headersOf c x (s.wr.undone s.wp s.wrReq)

/-- The channels and the memory have the requests that the buffer has issued. -/
structure Coherent (c : BufferCfg) (a : AddrCfg) (m : Axi.Mem) (s : Bridge a.datWidthUsedLog2) : Prop where
  matched : ∃ waiting q, Matched c s.ex waiting q
  feed : ∃ waiting, Feed s waiting
  issued : s.ex.issued = s.issued.map Request.header
  written : ∃ done k, Stores c a m (s.issued.filter fun req => req.header.command) s.wr s.wp s.wrReq done k
  out : LoadsOut c a s.wp.executed s.rd s.rp s.rdReq
  back : LoadsBack c a m s.wp.executed s.rd s.rp s.rdResp
  loads : ∀ x, s.ex.pending c false x = s.loads x
  stores : ∀ x, s.ex.pending c true x = s.stores c x
  heldRd : ∀ id ∈ s.ex.heldRd, s.rd.respState = true ∧ s.rd.respIdF = id
  heldWr : ∀ id ∈ s.ex.heldWr, s.wr.respState = true ∧ s.wr.respIdF = id

theorem readResp_eq_some {id : Nat} :
    (s.bufferIn a i).readResp = some id ↔ s.rd.respState = true ∧ s.rd.respIdF = id := by
  change (if s.rd.respState = true then some s.rd.respIdF else none) = some id ↔ _
  simp

theorem writeResp_eq_some {id : Nat} :
    (s.bufferIn a i).writeResp = some id ↔ s.wr.respState = true ∧ s.wr.respIdF = id := by
  change (if s.wr.respState = true then some s.wr.respIdF else none) = some id ↔ _
  simp

namespace Coherent

theorem presents (h : Coherent c a m s) : s.ex.Presents c (s.bufferIn a i) where
  read := by
    intro id hid
    obtain ⟨hs, rfl⟩ := readResp_eq_some.mp hid
    refine ⟨s.rdResp.header, Exchange.mem_pending ?_⟩
    rw [h.loads]
    simp [Bridge.loads, AxiRead.returned, hs]
  write := by
    intro id hid
    obtain ⟨hs, rfl⟩ := writeResp_eq_some.mp hid
    refine ⟨s.wrResp.header, Exchange.mem_pending ?_⟩
    rw [h.stores]
    simp [Bridge.stores, AxiWrite.returned, hs]
  heldRd := by
    intro id hid
    exact readResp_eq_some.mpr (h.heldRd id hid)
  heldWr := by
    intro id hid
    exact writeResp_eq_some.mpr (h.heldWr id hid)

end Coherent

theorem taken_iff (command : Bool) (x : Nat) :
    s.ex.buf.taken c (s.bufferIn a i) = some (command, x) ↔
      if command then s.wr.respState = true ∧ s.ex.buf.writeRespRdy c (s.bufferIn a i) = true ∧ s.wr.respIdF = x
      else s.rd.respState = true ∧ s.ex.buf.readRespRdy c (s.bufferIn a i) = true ∧ s.rd.respIdF = x := by
  have hexcl : s.ex.buf.readRespRdy c (s.bufferIn a i) = true → s.ex.buf.writeRespRdy c (s.bufferIn a i) = false := by
    rw [Buffer.respRdy_eq.1, Buffer.respRdy_eq.2]
    cases s.ex.buf.storCommand c <;> simp
  rw [Buffer.taken]
  cases hrd : s.ex.buf.readRespRdy c (s.bufferIn a i) with
  | true =>
      rw [hexcl hrd]
      cases command <;> simp [Option.map_eq_some_iff, readResp_eq_some]
  | false =>
      cases hwr : s.ex.buf.writeRespRdy c (s.bufferIn a i) <;> cases command <;>
        simp [Option.map_eq_some_iff, writeResp_eq_some]

theorem taken_read (x : Nat) : s.ex.buf.taken c (s.bufferIn a i) = some (false, x) ↔
    s.rd.respState = true ∧ (s.readIn c a i).respRdy = true ∧ s.rd.respIdF = x := by
  have htaken := taken_iff (s := s) (c := c) (i := i) false x
  simp only [Bool.false_eq_true, if_false] at htaken
  exact htaken

theorem taken_write (x : Nat) : s.ex.buf.taken c (s.bufferIn a i) = some (true, x) ↔
    s.wr.respState = true ∧ (s.writeIn c a i).respRdy = true ∧ s.wr.respIdF = x := by
  have htaken := taken_iff (s := s) (c := c) (i := i) true x
  simp only [if_true] at htaken
  exact htaken

theorem rd_reqGo {req : ReadReq} (h : s.rd.reqGo a (s.readIn c a i) = some req) :
    req = readReq c a s.ex.buf.reqHeader ∧ s.ex.buf.reqVal = true ∧ s.ex.buf.reqCommand = false := by
  obtain ⟨-, hreq⟩ := (s.rd.reqGo_eq_some a _).mp h
  simp only [readIn, Option.ite_none_right_eq_some, Option.some_inj] at hreq
  obtain ⟨hval, rfl⟩ := hreq
  simp only [Buffer.readReqVal, Bool.and_eq_true, Bool.not_eq_true'] at hval
  exact ⟨rfl, hval.1.1.1, hval.1.1.2⟩

theorem wr_reqGo {req : WriteReq} (h : s.wr.reqGo (s.writeIn c a i) = some req) :
    req = writeReq c a (s.request a) ∧ s.ex.buf.reqVal = true ∧ s.ex.buf.reqCommand = true := by
  obtain ⟨-, hreq⟩ := (s.wr.reqGo_eq_some _).mp h
  simp only [writeIn, Option.ite_none_right_eq_some, Option.some_inj] at hreq
  obtain ⟨hval, rfl⟩ := hreq
  simp only [Buffer.writeReqVal, Bool.and_eq_true, Bool.not_eq_true'] at hval
  exact ⟨rfl, hval.1.1.1, hval.1.1.2⟩

theorem reqGo_eq : s.ex.buf.reqGo c (s.bufferIn a i) =
    ((s.rd.reqGo a (s.readIn c a i)).isSome || (s.wr.reqGo (s.writeIn c a i)).isSome) := by
  have hrd : (s.rd.reqGo a (s.readIn c a i)).isSome = (s.ex.buf.readReqVal c && s.rd.reqRdy) := by
    cases hr : s.rd.reqRdy <;> cases hv : s.ex.buf.readReqVal c <;> simp [AxiRead.reqGo, readIn, hr, hv]
  have hwr : (s.wr.reqGo (s.writeIn c a i)).isSome = (s.ex.buf.writeReqVal c && s.wr.reqRdy) := by
    cases hr : s.wr.reqRdy <;> cases hv : s.ex.buf.writeReqVal c <;> simp [AxiWrite.reqGo, writeIn, hr, hv]
  rw [hrd, hwr]
  rfl

/-- The memory gives an answer and does a burst before the channel sends. -/
def answered (c : BufferCfg) (s : Bridge a.datWidthUsedLog2) (i : BridgeIn a.datWidthUsedLog2) :
    WritePort a.datWidthUsedLog2 :=
  match s.wr.bgo (s.writeIn c a i) with
  | some id => s.wp.answer id
  | none => s.wp

def served (c : BufferCfg) (s : Bridge a.datWidthUsedLog2) (i : BridgeIn a.datWidthUsedLog2) :
    WritePort a.datWidthUsedLog2 :=
  if i.execWrite then (s.answered c i).execute else s.answered c i

theorem answered_eq : ∃ bs, s.answered c i = { s.wp with bs := bs } := by
  unfold answered
  split
  · exact ⟨_, rfl⟩
  · exact ⟨_, rfl⟩

/-- The read port when the master has taken a beat, and when the memory has then done an access. -/
def answeredRp (c : BufferCfg) (s : Bridge a.datWidthUsedLog2) (i : BridgeIn a.datWidthUsedLog2) :
    ReadPort a.datWidthUsedLog2 :=
  if (s.rd.rgo a (s.readIn c a i)).isSome then s.rp.answer else s.rp

def executedRp (c : BufferCfg) (s : Bridge a.datWidthUsedLog2) (i : BridgeIn a.datWidthUsedLog2) :
    ReadPort a.datWidthUsedLog2 :=
  i.execRead.elim (s.answeredRp c i) fun e => (s.answeredRp c i).execute s.wp.executed.length e.1 e.2

theorem answeredRp_ars : (s.answeredRp c i).ars = s.rp.ars := by
  rw [answeredRp]
  split
  · unfold ReadPort.answer
    split
    · rfl
    split <;> rfl
  · rfl

theorem rp_step : (s.step c a i).rp =
    if s.rd.argo a (s.readIn c a i) then (s.executedRp c i).takeAr s.rd.arid ⟨s.rd.ar, s.rdReq⟩ else s.executedRp c i := by
  rw [executedRp]
  simp only [Bridge.step, readPort]
  cases i.execRead <;> rfl

namespace Coherent

theorem reqCommand (h : Coherent c a m s) : s.ex.buf.reqCommand = s.ex.buf.reqHeader.command := by
  obtain ⟨waiting, q, hm⟩ := h.matched
  exact hm.waits.reqCommand

theorem request_access (h : Coherent c a m s) (hval : s.ex.buf.reqVal = true) : s.ex.buf.reqHeader.Access := by
  obtain ⟨waiting, hf⟩ := h.feed
  exact hf.request_access hval

theorem issued_iff (h : Coherent c a m s) (command : Bool) :
    (s.ex.buf.reqGo c (s.bufferIn a i) = true ∧ s.ex.buf.reqHeader.command = command) ↔
      if command then (s.wr.reqGo (s.writeIn c a i)).isSome = true else (s.rd.reqGo a (s.readIn c a i)).isSome = true := by
  have hcommand := h.reqCommand
  rw [reqGo_eq, ← hcommand]
  cases hrd : s.rd.reqGo a (s.readIn c a i) with
  | some req =>
      have hc := (rd_reqGo hrd).2.2
      cases hwr : s.wr.reqGo (s.writeIn c a i) with
      | some req' =>
          rw [(wr_reqGo hwr).2.2] at hc
          cases hc
      | none => cases command <;> simp [hc]
  | none =>
      cases hwr : s.wr.reqGo (s.writeIn c a i) with
      | some req => cases command <;> simp [(wr_reqGo hwr).2.2]
      | none => cases command <;> simp

theorem issued_write (h : Coherent c a m s) :
    (s.ex.buf.reqGo c (s.bufferIn a i) = true ∧ s.ex.buf.reqHeader.command = true) ↔
      (s.wr.reqGo (s.writeIn c a i)).isSome = true := by
  simpa using h.issued_iff (i := i) true

theorem issued_read (h : Coherent c a m s) :
    (s.ex.buf.reqGo c (s.bufferIn a i) = true ∧ s.ex.buf.reqHeader.command = false) ↔
      (s.rd.reqGo a (s.readIn c a i)).isSome = true := by
  simpa using h.issued_iff (i := i) false

theorem serHeader_eq (h : Coherent c a m s) :
    (∀ x, s.ex.buf.taken c (s.bufferIn a i) = some (false, x) → s.ex.buf.serHeader c = s.rdResp.header) ∧
    (∀ x, s.ex.buf.taken c (s.bufferIn a i) = some (true, x) → s.ex.buf.serHeader c = s.wrResp.header) := by
  obtain ⟨waiting, q, hm⟩ := h.matched
  constructor
  · intro x ht
    have hpending := Exchange.pending_step hm (h.presents (i := i)) false x
    obtain ⟨hs, -, hid⟩ := (taken_read x).mp ht
    rw [if_pos ht, h.loads, Bridge.loads, AxiRead.returned, if_pos ⟨hs, hid⟩] at hpending
    exact (List.cons_eq_cons.mp hpending).1
  · intro x ht
    have hpending := Exchange.pending_step hm (h.presents (i := i)) true x
    obtain ⟨hs, -, hid⟩ := (taken_write x).mp ht
    rw [if_pos ht, h.stores, Bridge.stores, AxiWrite.returned, if_pos ⟨hs, hid⟩] at hpending
    exact (List.cons_eq_cons.mp hpending).1

theorem issued_step (h : Coherent c a m s) :
    ((s.step c a i).issued.filter fun req => req.header.command) =
      (s.issued.filter fun req => req.header.command) ++
        if (s.wr.reqGo (s.writeIn c a i)).isSome then [s.request a] else [] := by
  have hissued := h.issued_write (i := i)
  have hcommand : (s.request a).header.command = s.ex.buf.reqHeader.command := rfl
  simp only [Bridge.step]
  by_cases hgo : s.ex.buf.reqGo c (s.bufferIn a i) = true
  · rw [if_pos hgo, List.filter_append]
    congr 1
    by_cases hc : s.ex.buf.reqHeader.command = true
    · rw [if_pos (hissued.mp ⟨hgo, hc⟩), List.filter_cons_of_pos (by rw [hcommand, hc])]
      rfl
    · rw [if_neg (fun hsome => hc (hissued.mpr hsome).2), List.filter_cons_of_neg (by rw [hcommand]; exact hc)]
      rfl
  · rw [if_neg hgo, if_neg (fun hsome => hgo (hissued.mpr hsome).1), List.append_nil]

theorem served_written (h : Coherent c a m s) (hi : s.Honours a i) :
    (∃ done k, Stores c a m (s.issued.filter fun req => req.header.command) s.wr (s.served c i) s.wrReq done k) ∧
      s.wp.executed <+: (s.served c i).executed ∧
      ∀ x, ((s.served c i).bs x).map Request.header ++ headersOf c x (s.wr.undone (s.served c i) s.wrReq) =
        ((s.answered c i).bs x).map Request.header ++ headersOf c x (s.wr.undone s.wp s.wrReq) := by
  obtain ⟨done, k, hw⟩ := h.written
  obtain ⟨bs, hans⟩ := s.answered_eq (c := c) (i := i)
  have hanswered : Stores c a m (s.issued.filter fun req => req.header.command) s.wr (s.answered c i) s.wrReq done k := by
    rw [hans]
    exact ⟨hw.mem, hw.order, hw.bursts, hw.access, hw.address, hw.bursting, hw.resting, hw.transfers, hw.left⟩
  have hundone : s.wr.undone (s.answered c i) s.wrReq = s.wr.undone s.wp s.wrReq := by rw [hans]; rfl
  rw [served]
  split
  next hexec =>
    obtain ⟨e, rest, haws, hlen⟩ := hi.execWrite hexec
    have haws' : (s.answered c i).aws = e :: rest := by rw [hans]; exact haws
    have hws' : (s.answered c i).ws = s.wp.ws := by rw [hans]
    refine ⟨⟨_, _, hanswered.execute haws' (by rw [hws']; exact hlen)⟩, ?_, fun x => ?_⟩
    · rw [WritePort.execute, haws', hans]
      exact List.prefix_append _ _
    · rw [hanswered.execute_order haws', hundone]
  next =>
    refine ⟨⟨_, _, hanswered⟩, ?_, fun x => by rw [hundone]⟩
    rw [hans]

theorem written_step (h : Coherent c a m s) (hi : s.Honours a i) :
    (∃ done k, Stores c a m ((s.step c a i).issued.filter fun req => req.header.command) (s.step c a i).wr
      (s.step c a i).wp (s.step c a i).wrReq done k) ∧ (s.step c a i).wp.executed = (s.served c i).executed ∧
      (s.step c a i).wr.undone (s.step c a i).wp (s.step c a i).wrReq = s.wr.undone (s.served c i) s.wrReq ++
        if (s.wr.reqGo (s.writeIn c a i)).isSome then [s.request a] else [] := by
  obtain ⟨⟨done, k, hw⟩, -, -⟩ := h.served_written hi
  have hwp : (s.step c a i).wp = Stores.sends a s.wr (s.writeIn c a i) s.wrReq (s.served c i) := rfl
  have hexec : (s.step c a i).wp.executed = (s.served c i).executed := by
    rw [hwp, Stores.sends_eq]
  have hissued := h.issued_step (i := i)
  suffices hnext : ∃ done k, Stores c a m ((s.step c a i).issued.filter fun req => req.header.command)
      (s.step c a i).wr (s.step c a i).wp (s.step c a i).wrReq done k by
    refine ⟨hnext, hexec, ?_⟩
    obtain ⟨done', k', hw'⟩ := hnext
    rw [hissued] at hw'
    exact hw.undone_eq hw' hexec
  rw [hissued, hwp]
  cases hgo : s.wr.reqGo (s.writeIn c a i) with
  | some req =>
      obtain ⟨rfl, hval, -⟩ := wr_reqGo hgo
      refine ⟨done, 0, ?_⟩
      have hstart := hw.start hgo (h.request_access hval)
      simpa [Bridge.step, hgo] using hstart
  | none =>
      obtain ⟨done', k', hnext⟩ := hw.next hgo
      refine ⟨done', k', ?_⟩
      simpa [Bridge.step, hgo] using hnext

/-- The packet handed over leaves the requests under way, and a request issued joins them. -/
theorem stores_step (h : Coherent c a m s) (hi : s.Honours a i) (x : Nat) :
    (if s.ex.buf.taken c (s.bufferIn a i) = some (true, x) then [s.ex.buf.serHeader c] else []) ++
        (s.step c a i).stores c x =
      s.stores c x ++
        if s.ex.buf.reqGo c (s.bufferIn a i) = true ∧ s.ex.buf.reqHeader.command = true ∧
          c.axiId s.ex.buf.reqHeader = x then [s.ex.buf.reqHeader] else [] := by
  obtain ⟨-, -, hserved⟩ := h.served_written hi
  obtain ⟨-, -, hundone⟩ := h.written_step hi
  have hanswers : (if s.wr.respState = true ∧ (s.writeIn c a i).respRdy = true ∧ s.wr.respIdF = x then
        [s.wrResp.header] else []) ++
      ((s.step c a i).wr.returned (s.step c a i).wrResp x ++ ((s.answered c i).bs x).map Request.header) =
      s.wr.returned s.wrResp x ++ (s.wp.bs x).map Request.header :=
    answers_order a s.wr s.wp s.wrResp (i := s.writeIn c a i) hi.bid x
  have hout : (if s.ex.buf.taken c (s.bufferIn a i) = some (true, x) then [s.ex.buf.serHeader c] else []) =
      if s.wr.respState = true ∧ (s.writeIn c a i).respRdy = true ∧ s.wr.respIdF = x then [s.wrResp.header] else [] := by
    split
    next ht => rw [if_pos ((taken_write x).mp ht), h.serHeader_eq.2 x ht]
    next ht => rw [if_neg (fun hc => ht ((taken_write x).mpr hc))]
  have hinp : headersOf c x (if (s.wr.reqGo (s.writeIn c a i)).isSome then [s.request a] else []) =
      if s.ex.buf.reqGo c (s.bufferIn a i) = true ∧ s.ex.buf.reqHeader.command = true ∧
        c.axiId s.ex.buf.reqHeader = x then [s.ex.buf.reqHeader] else [] := by
    by_cases hs : (s.wr.reqGo (s.writeIn c a i)).isSome = true
    · obtain ⟨hgo, hc⟩ := h.issued_write.mpr hs
      by_cases hx : c.axiId s.ex.buf.reqHeader = x <;> simp [headersOf, request, hs, hgo, hc, hx]
    · rw [if_neg hs, if_neg (fun hc => hs (h.issued_write.mp ⟨hc.1, hc.2.1⟩))]
      rfl
  have hbs : (s.step c a i).wp.bs = (s.served c i).bs := by
    change (Stores.sends a s.wr (s.writeIn c a i) s.wrReq (s.served c i)).bs = _
    rw [Stores.sends_eq]
  rw [hout, Bridge.stores, Bridge.stores, hundone, hbs, headersOf_append, hinp]
  exact stages_append hanswers (hserved x)

theorem loads_step (h : Coherent c a m s) (x : Nat) :
    (if s.ex.buf.taken c (s.bufferIn a i) = some (false, x) then [s.ex.buf.serHeader c] else []) ++
        (s.step c a i).loads x =
      s.loads x ++
        if s.ex.buf.reqGo c (s.bufferIn a i) = true ∧ s.ex.buf.reqHeader.command = false ∧
          c.axiId s.ex.buf.reqHeader = x then [s.ex.buf.reqHeader] else [] := by
  have hout : (if s.ex.buf.taken c (s.bufferIn a i) = some (false, x) then [s.ex.buf.serHeader c] else []) =
      if s.rd.respState = true ∧ (s.readIn c a i).respRdy = true ∧ s.rd.respIdF = x then [s.rdResp.header] else [] := by
    split
    next ht => rw [if_pos ((taken_read x).mp ht), h.serHeader_eq.1 x ht]
    next ht => rw [if_neg (fun hc => ht ((taken_read x).mpr hc))]
  have hback : (if s.rd.respState = true ∧ (s.readIn c a i).respRdy = true ∧ s.rd.respIdF = x then
        [s.rdResp.header] else []) ++
      ((s.step c a i).rd.returned (s.step c a i).rdResp x ++ (s.answeredRp c i).done x) =
      s.rd.returned s.rdResp x ++ s.rp.done x := h.back.order (i := s.readIn c a i) rfl x
  have hexec : (s.executedRp c i).done x ++ (s.executedRp c i).waiting x = (s.answeredRp c i).done x ++ s.rp.waiting x := by
    have hwait : (s.answeredRp c i).waiting x = s.rp.waiting x := by rw [ReadPort.waiting, answeredRp_ars, ReadPort.waiting]
    rw [← hwait, executedRp]
    cases i.execRead with
    | none => rfl
    | some e => exact (s.answeredRp c i).execute_order _ _ _ x
  have hreq := requests_order s.rd (s.executedRp c i) (s.readIn c a i) s.rdReq ⟨s.ex.buf.reqHeader, s.wp.executed.length⟩ x
  have hdone : (s.step c a i).rp.done x = (s.executedRp c i).done x := by
    rw [rp_step]
    split <;> rfl
  have hinp : (if ∃ req, s.rd.reqGo a (s.readIn c a i) = some req ∧ req.id = x then [s.ex.buf.reqHeader] else []) =
      if s.ex.buf.reqGo c (s.bufferIn a i) = true ∧ s.ex.buf.reqHeader.command = false ∧
        c.axiId s.ex.buf.reqHeader = x then [s.ex.buf.reqHeader] else [] := by
    refine if_congr ⟨?_, ?_⟩ rfl rfl
    · rintro ⟨req, hgo, hid⟩
      obtain ⟨hreqgo, hc⟩ := h.issued_read.mpr (by rw [hgo]; rfl)
      obtain ⟨rfl, -⟩ := rd_reqGo hgo
      exact ⟨hreqgo, hc, hid⟩
    · rintro ⟨hreqgo, hc, hid⟩
      obtain ⟨req, hgo⟩ := Option.isSome_iff_exists.mp (h.issued_read.mp ⟨hreqgo, hc⟩)
      refine ⟨req, hgo, ?_⟩
      obtain ⟨rfl, -⟩ := rd_reqGo hgo
      exact hid
  have hlast : (s.step c a i).rp.waiting x ++ (s.step c a i).rd.requested (s.step c a i).rdReq x =
      (s.executedRp c i).waiting x ++ s.rd.requested s.rdReq x ++ if ∃ req, s.rd.reqGo a (s.readIn c a i) = some req ∧ req.id = x
        then [s.ex.buf.reqHeader] else [] := by
    rw [rp_step]
    exact hreq
  rw [hout, Bridge.loads, Bridge.loads, hdone, hlast, ← hinp]
  refine stages_append hback ?_
  rw [← List.append_assoc, hexec, List.append_assoc]

theorem held_step :
    (∀ id ∈ (s.step c a i).ex.heldRd, (s.step c a i).rd.respState = true ∧ (s.step c a i).rd.respIdF = id) ∧
      ∀ id ∈ (s.step c a i).ex.heldWr, (s.step c a i).wr.respState = true ∧ (s.step c a i).wr.respIdF = id := by
  constructor
  · intro id hid
    simp only [Bridge.step, Exchange.step] at hid
    split at hid
    · cases hid
    next hrdy =>
      obtain ⟨hs, hid⟩ := readResp_eq_some.mp hid
      have hrgo : s.rd.rgo a (s.readIn c a i) = none := by simp [AxiRead.rgo, AxiRead.rready, hs]
      have hrdy' : (s.readIn c a i).respRdy = false := (Bool.not_eq_true _).mp hrdy
      simp [Bridge.step, AxiRead.step, hrgo, hs, hrdy', hid]
  · intro id hid
    simp only [Bridge.step, Exchange.step] at hid
    split at hid
    · cases hid
    next hrdy =>
      obtain ⟨hs, hid⟩ := writeResp_eq_some.mp hid
      have hbgo : s.wr.bgo (s.writeIn c a i) = none := by simp [AxiWrite.bgo, AxiWrite.bready, hs]
      have hrdy' : (s.writeIn c a i).respRdy = false := (Bool.not_eq_true _).mp hrdy
      simp [Bridge.step, AxiWrite.step, hbgo, hs, hrdy', hid]

theorem loaded_step (h : Coherent c a m s) (hi : s.Honours a i) :
    LoadsOut c a (s.step c a i).wp.executed (s.step c a i).rd (s.step c a i).rp (s.step c a i).rdReq ∧
      LoadsBack c a m (s.step c a i).wp.executed (s.step c a i).rd (s.step c a i).rp (s.step c a i).rdResp := by
  obtain ⟨-, ⟨post, hpost⟩, -⟩ := h.served_written hi
  obtain ⟨-, hexec, -⟩ := h.written_step hi
  obtain ⟨done, k, hw⟩ := h.written
  rw [hexec, ← hpost]
  have hback : LoadsBack c a m s.wp.executed (s.step c a i).rd (s.answeredRp c i) (s.step c a i).rdResp :=
    h.back.step (i := s.readIn c a i) rfl
  have hanswered : LoadsOut c a s.wp.executed s.rd (s.answeredRp c i) s.rdReq :=
    ⟨h.out.register, by rw [answeredRp_ars]; exact h.out.bursts⟩
  have hexecuted : LoadsOut c a s.wp.executed s.rd (s.executedRp c i) s.rdReq ∧
      LoadsBack c a m s.wp.executed (s.step c a i).rd (s.executedRp c i) (s.step c a i).rdResp := by
    rw [executedRp]
    cases hread : i.execRead with
    | none => exact ⟨hanswered, hback⟩
    | some r =>
      obtain ⟨e, rest, he, hlen, hserves⟩ := hi.execRead r.1 r.2 hread
      rw [← answeredRp_ars (c := c) (i := i)] at he
      rw [hw.mem] at hserves
      exact ⟨hanswered.execute _ r.1 r.2,
        hback.execute he (hanswered.bursts r.1 e (by rw [he]; exact List.mem_cons_self)) hlen hserves⟩
  refine ⟨LoadsOut.mono ?_ post, LoadsBack.mono ?_ post⟩
  · rw [rp_step]
    refine hexecuted.1.step (i := s.readIn c a i) (l := ⟨s.ex.buf.reqHeader, s.wp.executed.length⟩) fun req hgo => ?_
    obtain ⟨rfl, hval, -⟩ := rd_reqGo hgo
    exact ⟨rfl, rfl, h.request_access hval, Nat.le_refl _⟩
  · have hb := hexecuted.2
    rw [rp_step]
    split
    · exact ⟨hb.datas, hb.collecting, hb.sent_lt, hb.sent_nil, hb.response⟩
    · exact hb

theorem step (h : Coherent c a m s) (hi : s.Honours a i) : Coherent c a m (s.step c a i) where
  matched := by
    obtain ⟨waiting, q, hm⟩ := h.matched
    exact ⟨_, _, hm.step h.presents⟩
  feed := by
    obtain ⟨waiting, hf⟩ := h.feed
    exact ⟨_, hf.step hi⟩
  issued := by
    simp only [Bridge.step, Exchange.step]
    split
    · rw [h.issued, List.map_append]
      rfl
    · exact h.issued
  written := (h.written_step hi).1
  out := (h.loaded_step hi).1
  back := (h.loaded_step hi).2
  loads := by
    intro x
    obtain ⟨waiting, q, hm⟩ := h.matched
    have hpending := Exchange.pending_step hm (h.presents (i := i)) false x
    rw [h.loads, ← h.loads_step] at hpending
    exact List.append_cancel_left hpending
  stores := by
    intro x
    obtain ⟨waiting, q, hm⟩ := h.matched
    have hpending := Exchange.pending_step hm (h.presents (i := i)) true x
    rw [h.stores, ← h.stores_step hi] at hpending
    exact List.append_cancel_left hpending
  heldRd := held_step.1
  heldWr := held_step.2

theorem init (h : s.Init a m) : Coherent c a m s := by
  obtain ⟨ex, mem, aw, awid, ar, arid, hex, rfl⟩ := h
  have hmatched := Matched.init (c := c) hex
  obtain ⟨command, omem, dataA, dataB, rd, wr, rfl⟩ := hex
  exact {
    matched := ⟨_, _, hmatched⟩
    feed := ⟨[], Ring.Holds.empty (by decide), rfl, fun hv => by simp at hv, by simp⟩
    issued := rfl
    written := ⟨[], 0, rfl, rfl, by simp, fun hb => absurd rfl hb, fun hv => by simp [AxiWrite.awvalid, WriteState.awvalid] at hv,
      fun hv => by simp [AxiWrite.wvalid, WriteState.wvalid] at hv, fun _ => rfl, rfl, rfl⟩
    out := ⟨fun hr => by simp at hr, by simp⟩
    back := ⟨by simp, AxiRead.Collecting.start rfl, by simp, fun _ => rfl, fun hr => by simp at hr⟩
    loads := fun x => rfl
    stores := fun x => rfl
    heldRd := by simp
    heldWr := by simp }

theorem of_reaches (hr : Machine.Reaches (Bridge.Init a · m) (Bridge.step c a) (Bridge.Honours a) s) : Coherent c a m s :=
  hr.invariant (P := Coherent c a m) (fun _ h => init h) fun _ _ h hi => h.step hi

end Coherent

end Bridge

/-- Two accesses without a byte in common. -/
def Header.Apart (h h' : Header) : Prop := h.base + h.size ≤ h'.base ∨ h'.base + h'.size ≤ h.base

namespace AddrCfg

variable {a : AddrCfg} {m m' : Axi.Mem}

theorem put_translate (m : Axi.Mem) {st : Request} (ha : st.header.Access) {v : Nat} (hv : v < 2 ^ 64) :
    m.put (a.translate st.header.base) st.header.size (Axi.byte st.data) (a.translate v) =
      if st.header.base ≤ v ∧ v < st.header.base + st.header.size then Axi.byte st.data (v - st.header.base)
      else m (a.translate v) := by
  have hreq : ∀ k < st.header.size, a.translate (st.header.base + k) = a.translate st.header.base + k := by
    intro k hk
    rw [a.reqAddr_eq ha hk, reqAddr_eq_base ha]
  split
  next hin =>
    obtain ⟨k, rfl⟩ := Nat.exists_eq_add_of_le hin.1
    have hk : k < st.header.size := by omega
    rw [hreq k hk, Axi.Mem.put_same _ _ hk, Nat.add_sub_cancel_left]
  next hout =>
    rw [Axi.Mem.put, if_neg]
    rintro ⟨hle, hlt⟩
    obtain ⟨k, hk⟩ := Nat.exists_eq_add_of_le hle
    have hks : k < st.header.size := by omega
    rw [← hreq k hks] at hk
    have := a.translate_inj hv (ha.base_lt hks) hk
    omega

theorem stored_append (m : Axi.Mem) (l l' : List Request) : a.stored m (l ++ l') = a.stored (a.stored m l) l' :=
  List.foldl_append

theorem stored_apart {h : Header} {v : Nat} (hv : v < 2 ^ 64) (hin : h.base ≤ v ∧ v < h.base + h.size)
    {l : List Request} (hl : ∀ st ∈ l, st.header.Access ∧ st.header.Apart h) (m : Axi.Mem) :
    a.stored m l (a.translate v) = m (a.translate v) := by
  induction l generalizing m with
  | nil => rfl
  | cons st l ih =>
      obtain ⟨ha, hapart⟩ := hl st List.mem_cons_self
      have hstore := put_translate (a := a) m ha hv
      rw [if_neg (by unfold Header.Apart at hapart; omega)] at hstore
      rw [← hstore]
      exact ih (fun st' hst' => hl st' (List.mem_cons_of_mem _ hst')) _

/-- The bytes of an access in a memory, over and over. -/
def Loads (a : AddrCfg) (m : Axi.Mem) (h : Header) (data : Line) : Prop :=
  ∀ k < 64, Axi.byte data k = m (a.translate (h.base + k % h.size))

theorem Loads.last {h : Header} (ha : h.Access) {data : Line} {pre post : List Request} {st : Request}
    (hst : st.header.Access) (hbase : st.header.base = h.base) (hsize : st.header.size = h.size)
    (hpost : ∀ st' ∈ post, st'.header.Access ∧ st'.header.Apart h)
    (hl : Loads a (a.stored m (pre ++ st :: post)) h data) {k : Nat} (hk : k < 64) :
    Axi.byte data k = Axi.byte st.data (k % h.size) := by
  have hmod := Nat.mod_lt k h.size_pos
  have hv := ha.base_lt hmod
  have hput := put_translate (a := a) (a.stored m pre) hst hv
  rw [if_pos (by omega), hbase, Nat.add_sub_cancel_left] at hput
  rw [hl k hk, stored_append]
  change a.stored ((a.stored m pre).put _ _ _) post _ = _
  rw [stored_apart hv (by omega) hpost, hbase, hput]

end AddrCfg

namespace Bridge

variable {c : BufferCfg} {a : AddrCfg} {m : Axi.Mem} {s : Bridge a.datWidthUsedLog2}
  {i : BridgeIn a.datWidthUsedLog2}

namespace Coherent

end Coherent

end Bridge

section Run

end Run

end OpenPiton.NocAxi
