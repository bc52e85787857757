import OpenPiton.NocAxi.Bridge

namespace OpenPiton.NocAxi

namespace Bridge

variable {c : BufferCfg} {a : AddrCfg} {s : Bridge a.datWidthUsedLog2} {i : BridgeIn a.datWidthUsedLog2}

theorem deserGo_spec (h : s.ex.buf.deserGo (s.bufferIn a i) = true) :
    ∃ req, i.deser = some req ∧ s.ex.buf.pktStateBuf s.ex.buf.fifoIn = false := by
  obtain ⟨header, hd, hfree⟩ := Buffer.deserGo_spec h
  obtain ⟨req, hreq, -⟩ := Option.map_eq_some_iff.mp hd
  exact ⟨req, hreq, hfree⟩

/-- The data of the packets are in the memory beside their headers, and the one whose turn it is has
been read. -/
structure Feed (s : Bridge a.datWidthUsedLog2) (waiting : List Request) : Prop where
  fifo : Ring.Holds 2 (fun k => (⟨s.ex.buf.pktHeader k, s.sram.mem k⟩ : Request)) s.ex.buf.pktStateBuf
    s.ex.buf.fifoOut s.ex.buf.fifoIn waiting
  received : s.received = s.issued ++ waiting
  valid : s.ex.buf.reqVal = true → waiting ≠ [] ∧ s.sram.doutb = s.sram.mem s.ex.buf.fifoOut
  access : ∀ req ∈ s.received, req.header.Access

/-- The packets that wait after a cycle. -/
def nextWaiting (c : BufferCfg) (s : Bridge a.datWidthUsedLog2) (i : BridgeIn a.datWidthUsedLog2)
    (waiting : List Request) : List Request :=
  (if s.ex.buf.reqGo c (s.bufferIn a i) then waiting.tail else waiting) ++
    if s.ex.buf.deserGo (s.bufferIn a i) then i.deser.toList else []

namespace Feed

variable {waiting : List Request}

theorem head (h : Feed s waiting) (hval : s.ex.buf.reqVal = true) : ∃ rest, waiting = s.request a :: rest := by
  obtain ⟨hne, hdata⟩ := h.valid hval
  obtain ⟨req, rest, rfl⟩ := List.exists_cons_of_ne_nil hne
  refine ⟨rest, ?_⟩
  rw [request, wdata, hdata, Buffer.reqHeader, ← h.fifo.head]

theorem request_access (h : Feed s waiting) (hval : s.ex.buf.reqVal = true) : (s.request a).header.Access := by
  obtain ⟨rest, rfl⟩ := h.head hval
  exact h.access _ (by simp [h.received])

theorem step (h : Feed s waiting) (hi : s.Honours a i) : Feed (s.step c a i) (s.nextWaiting c i waiting) where
  fifo := by
    have hput : s.ex.buf.deserGo (s.bufferIn a i) = true → s.ex.buf.pktStateBuf s.ex.buf.fifoIn = false := fun hd =>
      (deserGo_spec hd).choose_spec.2
    have htake : s.ex.buf.reqGo c (s.bufferIn a i) = true → waiting ≠ [] := fun hr =>
      (h.valid (Buffer.reqGo_spec hr).1).1
    have hcycle := h.fifo.cycle htake hput (i.deser.getD ⟨⟨0, 0, 0⟩, 0⟩)
    have hnext : s.nextWaiting c i waiting =
        (if s.ex.buf.reqGo c (s.bufferIn a i) then waiting.tail else waiting) ++
          if s.ex.buf.deserGo (s.bufferIn a i) then [i.deser.getD ⟨⟨0, 0, 0⟩, 0⟩] else [] := by
      unfold nextWaiting
      congr 1
      split
      next hd =>
        obtain ⟨req, hdeser, -⟩ := deserGo_spec hd
        simp [hdeser]
      next => rfl
    have hslot : (fun k => (⟨(s.step c a i).ex.buf.pktHeader k, (s.step c a i).sram.mem k⟩ : Request)) = fun k =>
        if k = s.ex.buf.fifoIn ∧ s.ex.buf.deserGo (s.bufferIn a i) then i.deser.getD ⟨⟨0, 0, 0⟩, 0⟩
        else ⟨s.ex.buf.pktHeader k, s.sram.mem k⟩ := by
      funext k
      simp only [Bridge.step, Exchange.step, Buffer.step, SramData.step]
      by_cases hd : s.ex.buf.deserGo (s.bufferIn a i) = true
      · obtain ⟨req, hdeser, -⟩ := deserGo_spec hd
        have hheader : (s.bufferIn a i).deser = some req.header := by rw [bufferIn, hdeser]; rfl
        by_cases hk : k = s.ex.buf.fifoIn
        · subst hk
          simp only [hd, and_self, if_true, hheader, hdeser, Option.getD_some, Option.elim_some, Function.update_self]
        · simp only [hk, false_and, if_false, hd, if_true, Function.update_of_ne hk]
      · simp only [hd, and_false, Bool.false_eq_true, if_false]
    rw [hnext, hslot]
    exact hcycle
  received := by
    simp only [Bridge.step, nextWaiting]
    by_cases hreq : s.ex.buf.reqGo c (s.bufferIn a i) = true
    · obtain ⟨rest, rfl⟩ := h.head (Buffer.reqGo_spec hreq).1
      by_cases hdes : s.ex.buf.deserGo (s.bufferIn a i) = true <;> simp [hreq, hdes, h.received]
    · by_cases hdes : s.ex.buf.deserGo (s.bufferIn a i) = true <;> simp [hreq, hdes, h.received]
  valid := by
    intro hval
    have hold : s.ex.buf.pktStateBuf s.ex.buf.fifoOut = true ∧ s.ex.buf.reqGo c (s.bufferIn a i) = false := by
      simpa [Bridge.step, Exchange.step, Buffer.step] using hval
    refine ⟨by simp [nextWaiting, hold.2, h.fifo.val_rd.mp hold.1], ?_⟩
    have hout : (s.step c a i).ex.buf.fifoOut = s.ex.buf.fifoOut := by
      simp [Bridge.step, Exchange.step, Buffer.step, hold.2]
    rw [hout]
    simp only [Bridge.step, SramData.step]
    split
    next hd =>
      obtain ⟨req, -, hfree⟩ := deserGo_spec hd
      have hne : s.ex.buf.fifoOut ≠ s.ex.buf.fifoIn := by
        intro heq
        rw [heq, hfree] at hold
        exact absurd hold.1 (by decide)
      rw [Function.update_of_ne hne]
    next => rfl
  access := by
    intro req hreq
    simp only [Bridge.step] at hreq
    split at hreq
    · rcases List.mem_append.mp hreq with hold | hnew
      · exact h.access req hold
      · exact hi.deser req (by simpa using hnew)
    · exact h.access req hreq

end Feed

end Bridge

namespace AddrCfg

variable (a : AddrCfg)

/-- The memory after a number of stores. -/
def stored (m : Axi.Mem) (l : List Request) : Axi.Mem :=
  l.foldl (fun m st => m.put (a.translate st.header.base) st.header.size (Axi.byte st.data)) m

theorem stored_concat (m : Axi.Mem) (l : List Request) (st : Request) :
    a.stored m (l ++ [st]) = (a.stored m l).put (a.translate st.header.base) st.header.size (Axi.byte st.data) := by
  rw [stored, List.foldl_concat]
  rfl

/-- The transfers of a store. -/
def storeBeats (st : Request) : List (Axi.Beat a.datWidthUsedLog2) :=
  a.beats (a.burstLen st.header.sizeLog) (a.writeReqData st.header st.data) (a.writeReqStrb st.header)

theorem length_storeBeats (st : Request) : (a.storeBeats st).length = a.burstLen st.header.sizeLog + 1 :=
  a.length_beats _ _ _

end AddrCfg

/-- An entry of the write address channel is that of its store. -/
structure WriteBurst.For (c : BufferCfg) (a : AddrCfg) (e : WriteBurst) : Prop where
  burst : e.burst = a.burst (a.reqAddr e.store.header) e.store.header.sizeLog
  id : e.id = c.axiId e.store.header
  access : e.store.header.Access

/-- The write channel `w` has the store `cur`, and `issued` went to it; `done` are the stores whose
transfers have all left. -/
structure Stores (c : BufferCfg) (a : AddrCfg) (m : Axi.Mem) (issued : List Request) (w : AxiWrite)
    (p : WritePort a.datWidthUsedLog2) (cur : Request) (done : List Request) (k : Nat) : Prop where
  mem : p.mem = a.stored m p.executed
  order : p.executed ++ p.aws.map WriteBurst.store ++ (if w.awvalid then [cur] else []) = issued
  bursts : ∀ e ∈ p.aws, e.For c a
  access : w.reqState ≠ .idle → cur.header.Access
  address : w.awvalid = true → w.aw = a.burst (a.reqAddr cur.header) cur.header.sizeLog ∧ w.awid = c.axiId cur.header
  bursting : w.wvalid = true → w.Bursting a (Bridge.writeReq c a cur) k
  resting : w.wvalid = false → k = 0
  transfers : p.ws = done.flatMap a.storeBeats ++ (a.storeBeats cur).take k
  left : p.aws.map WriteBurst.store ++ (if w.awvalid && !w.wvalid then [cur] else []) =
    done ++ if w.wvalid && !w.awvalid then [cur] else []

namespace Stores

variable {c : BufferCfg} {a : AddrCfg} {m : Axi.Mem} {issued : List Request} {w : AxiWrite} {i : WriteIn}
  {p : WritePort a.datWidthUsedLog2} {cur st : Request} {done : List Request} {k : Nat}

theorem answer (h : Stores c a m issued w p cur done k) (id : Nat) : Stores c a m issued w (p.answer id) cur done k :=
  ⟨h.mem, h.order, h.bursts, h.access, h.address, h.bursting, h.resting, h.transfers, h.left⟩

theorem done_cons (h : Stores c a m issued w p cur done k) {e : WriteBurst} {rest : List WriteBurst}
    (haws : p.aws = e :: rest) (hlen : e.burst.len < p.ws.length) : ∃ done', done = e.store :: done' := by
  have hleft := h.left
  cases done with
  | cons st done' =>
      rw [haws, List.map_cons, List.cons_append, List.cons_append, List.cons_eq_cons] at hleft
      exact ⟨done', by rw [hleft.1]⟩
  | nil =>
      exfalso
      rw [haws, List.map_cons, List.cons_append, List.nil_append] at hleft
      have hwv : w.wvalid = true := by
        by_contra hno
        simp [hno] at hleft
      have hcur : e.store = cur := by
        cases hav : w.awvalid with
        | true => simp [hwv, hav] at hleft
        | false =>
            simp only [hwv, hav, Bool.false_and, Bool.not_false, Bool.and_self, Bool.false_eq_true, if_false, if_true,
              List.append_nil, List.cons_eq_cons] at hleft
            exact hleft.1
      have hk := (h.bursting hwv).sent_le
      have hburst := (h.bursts e (by rw [haws]; exact List.mem_cons_self)).burst
      rw [h.transfers, hburst, hcur] at hlen
      simp [Bridge.writeReq, AddrCfg.burst] at hlen hk
      omega

theorem execute (h : Stores c a m issued w p cur done k) {e : WriteBurst} {rest : List WriteBurst}
    (haws : p.aws = e :: rest) (hlen : e.burst.len < p.ws.length) :
    Stores c a m issued w p.execute cur done.tail k := by
  obtain ⟨done', rfl⟩ := h.done_cons haws hlen
  have hfor := h.bursts e (by rw [haws]; exact List.mem_cons_self)
  have hws : p.ws = a.storeBeats e.store ++ (done'.flatMap a.storeBeats ++ (a.storeBeats cur).take k) := by
    rw [h.transfers, List.flatMap_cons, List.append_assoc]
  have hn : (a.storeBeats e.store).length = e.burst.len + 1 := by
    rw [a.length_storeBeats, hfor.burst]
    rfl
  have hexec : p.execute = {
      mem := e.burst.write p.mem (p.ws.take (e.burst.len + 1))
      executed := p.executed ++ [e.store]
      aws := rest
      ws := p.ws.drop (e.burst.len + 1)
      bs := Function.update p.bs e.id (p.bs e.id ++ [e.store]) } := by
    rw [WritePort.execute, haws]
  rw [hexec]
  exact {
    mem := by
      simp only
      rw [hws, ← hn, List.take_left, hfor.burst, a.stored_concat, ← h.mem]
      exact AddrCfg.write_burst hfor.access _ _
    order := by
      rw [← h.order, haws]
      simp
    bursts := fun e' he' => h.bursts e' (by rw [haws]; exact List.mem_cons_of_mem _ he')
    access := h.access
    address := h.address
    bursting := h.bursting
    resting := h.resting
    transfers := by
      simp only
      rw [hws, ← hn, List.drop_left]
      rfl
    left := by
      have hleft := h.left
      rw [haws, List.map_cons, List.cons_append, List.cons_append, List.cons_eq_cons] at hleft
      exact hleft.2 }

/-- The entries of a cycle of the channel. -/
def sends (a : AddrCfg) (w : AxiWrite) (i : WriteIn) (cur : Request) (p : WritePort a.datWidthUsedLog2) :
    WritePort a.datWidthUsedLog2 :=
  let addressed := if w.awgo i then p.takeAw ⟨w.aw, w.awid, cur⟩ else p
  if w.wgo i then addressed.takeW (w.wBeat a) else addressed

theorem sends_eq : sends a w i cur p = { p with
    aws := p.aws ++ if w.awgo i then [⟨w.aw, w.awid, cur⟩] else []
    ws := p.ws ++ if w.wgo i then [w.wBeat a] else [] } := by
  unfold sends WritePort.takeAw WritePort.takeW
  cases w.awgo i <;> cases w.wgo i <;> simp

theorem start (h : Stores c a m issued w p cur done k) (hgo : w.reqGo i = some (Bridge.writeReq c a st))
    (ha : st.header.Access) :
    Stores c a m (issued ++ [st]) (w.step a i) (sends a w i cur p) st done 0 := by
  have hidle := ((w.reqGo_eq_some i).mp hgo).1
  obtain ⟨hav, hwv⟩ := w.valid_idle hidle
  obtain ⟨hav', hwv'⟩ := w.valid_step a i
  have hburst := AxiWrite.Bursting.start (c := a) hgo ha.sizeLog_le
  have hsends : sends a w i cur p = p := by
    rw [sends_eq]
    simp [AxiWrite.awgo, AxiWrite.wgo, hav, hwv]
  rw [hgo] at hav' hwv'
  simp only [Option.isSome_some, Bool.true_or] at hav' hwv'
  have horder := h.order
  have htransfers := h.transfers
  have hleft := h.left
  rw [h.resting hwv] at htransfers
  simp only [hav, hwv, Bool.false_and, Bool.false_eq_true, if_false, List.append_nil] at horder hleft
  rw [hsends]
  exact {
    mem := h.mem
    order := by rw [hav', if_pos rfl, horder]
    bursts := h.bursts
    access := fun _ => ha
    address := fun _ => ⟨hburst.aw, hburst.awid⟩
    bursting := fun _ => hburst
    resting := fun _ => rfl
    transfers := by simpa using htransfers
    left := by simpa [hav', hwv'] using hleft }

/-- What a cycle without a new store keeps, whatever becomes of the data. -/
theorem next_of (h : Stores c a m issued w p cur done k) (hgo : w.reqGo i = none) {done' : List Request} {k' : Nat}
    (hbursting : (w.step a i).wvalid = true → (w.step a i).Bursting a (Bridge.writeReq c a cur) k')
    (hresting : (w.step a i).wvalid = false → k' = 0)
    (htransfers : (sends a w i cur p).ws = done'.flatMap a.storeBeats ++ (a.storeBeats cur).take k')
    (hleft : (p.aws.map WriteBurst.store ++ if w.awgo i then [cur] else []) ++
        (if (w.awvalid && !w.awgo i) && !(w.step a i).wvalid then [cur] else []) =
      done' ++ if (w.step a i).wvalid && !(w.awvalid && !w.awgo i) then [cur] else []) :
    Stores c a m issued (w.step a i) (sends a w i cur p) cur done' k' := by
  obtain ⟨hav', -⟩ := w.valid_step a i
  rw [hgo] at hav'
  simp only [Option.isSome_none, Bool.false_or] at hav'
  have hav : w.awgo i = true → w.awvalid = true := fun hw => (Bool.and_eq_true _ _ ▸ hw).1
  have hbusy : w.awvalid = true → w.reqState ≠ .idle := by
    intro hv hidle
    rw [(w.valid_idle hidle).1] at hv
    cases hv
  have hstores : (sends a w i cur p).aws.map WriteBurst.store =
      p.aws.map WriteBurst.store ++ if w.awgo i then [cur] else [] := by
    rw [sends_eq]
    cases w.awgo i <;> simp
  have haw : (w.step a i).aw = w.aw ∧ (w.step a i).awid = w.awid := by simp [AxiWrite.step, hgo]
  exact {
    mem := by
      rw [sends_eq]
      exact h.mem
    order := by
      have hexec : (sends a w i cur p).executed = p.executed := by rw [sends_eq]
      rw [hstores, hav', hexec, ← h.order]
      cases hg : w.awgo i with
      | true => simp [hav hg]
      | false => simp
    bursts := by
      intro e he
      have hin : e ∈ p.aws ∨ (w.awgo i = true ∧ e = ⟨w.aw, w.awid, cur⟩) := by
        rw [sends_eq] at he
        cases hg : w.awgo i <;> simpa [hg] using he
      rcases hin with hold | ⟨hg, rfl⟩
      · exact h.bursts e hold
      · obtain ⟨hburst, hid⟩ := h.address (hav hg)
        exact ⟨hburst, hid, h.access (hbusy (hav hg))⟩
    access := by
      intro hb
      refine h.access fun hidle => hb ?_
      simp [AxiWrite.step, hidle, hgo, WriteState.next]
    address := by
      intro hv
      rw [hav', Bool.and_eq_true] at hv
      rw [haw.1, haw.2]
      exact h.address hv.1
    bursting := hbursting
    resting := hresting
    transfers := htransfers
    left := by
      rw [hstores, hav']
      exact hleft }

theorem next (h : Stores c a m issued w p cur done k) (hgo : w.reqGo i = none) :
    ∃ done' k', Stores c a m issued (w.step a i) (sends a w i cur p) cur done' k' := by
  obtain ⟨-, hwv'⟩ := w.valid_step a i
  rw [hgo] at hwv'
  simp only [Option.isSome_none, Bool.false_or] at hwv'
  have hav : w.awgo i = true → w.awvalid = true := fun hw => (Bool.and_eq_true _ _ ▸ hw).1
  have hws : (sends a w i cur p).ws = p.ws ++ if w.wgo i then [w.wBeat a] else [] := by rw [sends_eq]
  have hleft := h.left
  cases hwv : w.wvalid with
  | false =>
      have hwgo : w.wgo i = false := by simp [AxiWrite.wgo, hwv]
      rw [hwv, Bool.false_and] at hwv'
      refine ⟨done, k, h.next_of hgo (fun hv => ?_) (fun _ => h.resting hwv) ?_ ?_⟩
      · rw [hwv'] at hv
        cases hv
      · rw [hws, hwgo, h.transfers]
        simp
      · rw [hwv, Bool.not_false, Bool.and_true, Bool.false_and] at hleft
        rw [hwv', Bool.not_false, Bool.and_true, Bool.false_and]
        cases hg : w.awgo i <;> simpa [hg, hav] using hleft
  | true =>
      have hburst := h.bursting hwv
      have hbusy : w.reqState ≠ .idle := by
        intro hidle
        rw [(w.valid_idle hidle).2] at hwv
        cases hwv
      rw [hwv, Bool.true_and] at hwv'
      have hbeat : (a.storeBeats cur)[k]? = some (w.wBeat a) := by
        rw [hburst.wBeat]
        exact AddrCfg.beats_get hburst.sent_le _ _
      have htake : (a.storeBeats cur).take (k + 1) = (a.storeBeats cur).take k ++ [w.wBeat a] := by
        rw [List.take_add_one, hbeat]
        rfl
      rw [hwv, Bool.not_true, Bool.and_false, Bool.true_and] at hleft
      cases hlast : w.lwgo i with
      | false =>
          rw [hlast, Bool.not_false] at hwv'
          have hleft' : (p.aws.map WriteBurst.store ++ if w.awgo i then [cur] else []) ++
                (if (w.awvalid && !w.awgo i) && !(w.step a i).wvalid then [cur] else []) =
              done ++ if (w.step a i).wvalid && !(w.awvalid && !w.awgo i) then [cur] else [] := by
            rw [hwv', Bool.not_true, Bool.and_false, Bool.true_and]
            cases hg : w.awgo i with
            | false => simpa [hg] using hleft
            | true => simpa [hg, hav hg] using hleft
          cases hwgo : w.wgo i with
          | false =>
              refine ⟨done, k, h.next_of hgo (fun _ => hburst.stay hbusy (by simp [hwgo])) (fun hv => ?_) ?_ hleft'⟩
              · rw [hwv'] at hv
                cases hv
              · rw [hws, hwgo, h.transfers]
                simp
          | true =>
              have hl : w.wlast = false := by simpa [AxiWrite.lwgo, hwgo] using hlast
              refine ⟨done, k + 1, h.next_of hgo (fun _ => hburst.next hbusy hwgo hl) (fun hv => ?_) ?_ hleft'⟩
              · rw [hwv'] at hv
                cases hv
              · rw [hws, hwgo, if_pos rfl, h.transfers, htake, List.append_assoc]
      | true =>
          rw [hlast, Bool.not_true] at hwv'
          obtain ⟨hwgo, hl⟩ : w.wgo i = true ∧ w.wlast = true := by simpa [AxiWrite.lwgo] using hlast
          rw [hburst.wlast, beq_iff_eq] at hl
          refine ⟨done ++ [cur], 0, h.next_of hgo (fun hv => ?_) (fun _ => rfl) ?_ ?_⟩
          · rw [hwv'] at hv
            cases hv
          · have hall : (a.storeBeats cur).take (k + 1) = a.storeBeats cur := by
              rw [List.take_of_length_le]
              rw [a.length_storeBeats, hl]
              exact Nat.le_refl _
            rw [hws, hwgo, if_pos rfl, h.transfers, List.append_assoc, ← htake, hall]
            simp
          · rw [hwv', Bool.not_false, Bool.and_true, Bool.false_and]
            cases hg : w.awgo i with
            | false => cases hv : w.awvalid <;> simpa [hg, hv] using hleft
            | true => simpa [hg, hav hg] using hleft

end Stores

/-- A load that waits for the memory, with its id. -/
structure Load.For (c : BufferCfg) (a : AddrCfg) (executed : List Request) (l : Load) (burst : Axi.Burst) (id : Nat) :
    Prop where
  burst : burst = a.burst (a.reqAddr l.header) l.header.sizeLog
  id : id = c.axiId l.header
  access : l.header.Access
  since_le : l.since ≤ executed.length

/-- The transfers of a load have the bytes of the memory it has seen. -/
structure Seen.Has (a : AddrCfg) (m : Axi.Mem) (executed : List Request) (l : Seen)
    (beats : List (BitVec (8 * 2 ^ a.datWidthUsedLog2))) : Prop where
  access : l.header.Access
  length : beats.length = a.burstLen l.header.sizeLog + 1
  serves : (a.burst (a.reqAddr l.header) l.header.sizeLog).Serves (a.stored m (executed.take l.seen)) beats
  since_le : l.since ≤ l.seen
  seen_le : l.seen ≤ executed.length

section

variable {c : BufferCfg} {a : AddrCfg} {m : Axi.Mem} {executed : List Request}

theorem Load.For.mono {l : Load} {burst : Axi.Burst} {id : Nat} (h : l.For c a executed burst id) (post : List Request) :
    l.For c a (executed ++ post) burst id :=
  ⟨h.burst, h.id, h.access, Nat.le_trans h.since_le (by simp)⟩

theorem Seen.Has.mono {l : Seen} {beats : List (BitVec (8 * 2 ^ a.datWidthUsedLog2))} (h : l.Has a m executed beats)
    (post : List Request) : l.Has a m (executed ++ post) beats where
  access := h.access
  length := h.length
  serves := by
    rw [List.take_append_of_le_length h.seen_le]
    exact h.serves
  since_le := h.since_le
  seen_le := Nat.le_trans h.seen_le (by simp)

theorem Seen.Has.rdata {l : Seen} {beats : List (BitVec (8 * 2 ^ a.datWidthUsedLog2))} (h : l.Has a m executed beats)
    {data : Line} (hdata : a.Collects data beats) {k : Nat} (hk : k < 64) :
    Axi.byte (a.rdata l.header data) k =
      a.stored m (executed.take l.seen) (a.translate (l.header.base + k % l.header.size)) := by
  have hmod := Nat.mod_lt k l.header.size_pos
  rw [AddrCfg.byte_rdata h.access _ hk, AddrCfg.read_burst h.access h.length h.serves hdata hmod,
    a.reqAddr_eq h.access hmod, AddrCfg.reqAddr_eq_base h.access]

end

/-- The loads on their way to the memory. -/
structure LoadsOut (c : BufferCfg) (a : AddrCfg) (executed : List Request) (r : AxiRead)
    (p : ReadPort a.datWidthUsedLog2) (cur : Load) : Prop where
  register : r.reqState = true → cur.For c a executed r.ar r.arid
  bursts : ∀ id, ∀ e ∈ p.ars id, e.load.For c a executed e.burst id

/-- The loads on their way back. -/
structure LoadsBack (c : BufferCfg) (a : AddrCfg) (m : Axi.Mem) (executed : List Request) (r : AxiRead)
    (p : ReadPort a.datWidthUsedLog2) (resp : Seen) : Prop where
  datas : ∀ d ∈ p.rs, d.load.Has a m executed d.beats ∧ d.id = c.axiId d.load.header
  collecting : r.Collecting a ((p.rs.head?.elim [] ReadData.beats).take p.sent)
  sent_lt : ∀ d ∈ p.rs.head?, p.sent < d.beats.length
  sent_nil : p.rs = [] → p.sent = 0
  response : r.respState = true → r.respIdF = c.axiId resp.header ∧
    ∃ beats, resp.Has a m executed beats ∧ a.Collects r.respData beats

section

variable {c : BufferCfg} {a : AddrCfg} {m : Axi.Mem} {executed : List Request} {r : AxiRead}
  {p : ReadPort a.datWidthUsedLog2} {cur : Load} {resp : Seen} {i : ReadIn a.datWidthUsedLog2}

theorem LoadsOut.mono (h : LoadsOut c a executed r p cur) (post : List Request) :
    LoadsOut c a (executed ++ post) r p cur :=
  ⟨fun hr => (h.register hr).mono post, fun id e he => (h.bursts id e he).mono post⟩

theorem LoadsBack.mono (h : LoadsBack c a m executed r p resp) (post : List Request) :
    LoadsBack c a m (executed ++ post) r p resp where
  datas := fun d hd => ⟨(h.datas d hd).1.mono post, (h.datas d hd).2⟩
  collecting := h.collecting
  sent_lt := h.sent_lt
  sent_nil := h.sent_nil
  response := by
    intro hr
    obtain ⟨hid, beats, hhas, hdata⟩ := h.response hr
    exact ⟨hid, beats, hhas.mono post, hdata⟩

theorem LoadsOut.execute (h : LoadsOut c a executed r p cur) (n id : Nat) (beats : List (BitVec (8 * 2 ^ a.datWidthUsedLog2))) :
    LoadsOut c a executed r (p.execute n id beats) cur where
  register := h.register
  bursts := by
    intro id' e he
    unfold ReadPort.execute at he
    split at he
    next => exact h.bursts id' e he
    next e' rest hars =>
      change e ∈ Function.update p.ars id rest id' at he
      by_cases hid : id' = id
      · subst hid
        rw [Function.update_self] at he
        exact h.bursts id' e (by rw [hars]; exact List.mem_cons_of_mem _ he)
      · rw [Function.update_of_ne hid] at he
        exact h.bursts id' e he

theorem LoadsBack.execute (h : LoadsBack c a m executed r p resp) {id : Nat} {e : ReadBurst} {rest : List ReadBurst}
    {beats : List (BitVec (8 * 2 ^ a.datWidthUsedLog2))} (hars : p.ars id = e :: rest)
    (hfor : e.load.For c a executed e.burst id) (hlen : beats.length = e.burst.len + 1)
    (hserves : e.burst.Serves (a.stored m executed) beats) :
    LoadsBack c a m executed r (p.execute executed.length id beats) resp := by
  have hexec : p.execute executed.length id beats = {
      ars := Function.update p.ars id rest
      rs := p.rs ++ [⟨id, beats, ⟨e.load, executed.length⟩⟩]
      sent := p.sent } := by
    rw [ReadPort.execute, hars]
  rw [hfor.burst] at hlen hserves
  rw [hexec]
  exact {
    datas := by
      intro d hd
      rcases List.mem_append.mp hd with hold | hnew
      · exact h.datas d hold
      · obtain rfl := List.mem_singleton.mp hnew
        refine ⟨⟨hfor.access, hlen, ?_, hfor.since_le, Nat.le_refl _⟩, hfor.id⟩
        simp only [List.take_length]
        exact hserves
    collecting := by
      have hc := h.collecting
      have hnil := h.sent_nil
      simp only
      cases hrs : p.rs with
      | nil => simpa [hnil hrs, hrs] using hc
      | cons d ds => simpa [hrs] using hc
    sent_lt := by
      have hlt := h.sent_lt
      have hnil := h.sent_nil
      simp only
      cases hrs : p.rs with
      | nil => simp [hnil hrs, hlen]
      | cons d ds => simpa [hrs] using hlt
    sent_nil := by simp
    response := h.response }

theorem LoadsOut.step (h : LoadsOut c a executed r p cur) {l : Load}
    (hgo : ∀ req, r.reqGo a i = some req → l.For c a executed (a.burst req.addr req.sizeLog) req.id) :
    LoadsOut c a executed (r.step a i) (if r.argo a i then p.takeAr r.arid ⟨r.ar, cur⟩ else p)
      (if (r.reqGo a i).isSome then l else cur) where
  register := by
    intro hr
    cases hreq : r.reqGo a i with
    | some req => simpa [AxiRead.step, hreq] using hgo req hreq
    | none =>
        have hold : r.reqState = true := by
          by_contra hno
          simp [AxiRead.step, hno, hreq] at hr
        simpa [AxiRead.step, hreq] using h.register hold
  bursts := by
    intro id e he
    split at he
    next harg =>
      have hr : r.reqState = true := (Bool.and_eq_true _ _ ▸ harg).1
      rw [ReadPort.takeAr] at he
      by_cases hid : id = r.arid
      · subst hid
        simp only [Function.update_self] at he
        rcases List.mem_append.mp he with hold | hnew
        · exact h.bursts _ e hold
        · obtain rfl := List.mem_singleton.mp hnew
          exact h.register hr
      · simp only [Function.update_of_ne hid] at he
        exact h.bursts id e he
    next => exact h.bursts id e he

/-- A transfer on the read channel is the next one of the first burst. -/
theorem beat_spec (h : LoadsBack c a m executed r p resp) {beat : ReadBeat a.datWidthUsedLog2} (hb : p.beat = some beat) :
    ∃ d ds, p.rs = d :: ds ∧ d.beats[p.sent]? = some beat.data ∧ beat.id = d.id ∧
      beat.last = (p.sent + 1 == d.beats.length) ∧
      d.beats.take (p.sent + 1) = d.beats.take p.sent ++ [beat.data] ∧ r.Collecting a (d.beats.take p.sent) := by
  have hc := h.collecting
  obtain ⟨d, hd, hbeat⟩ := Option.bind_eq_some_iff.mp hb
  obtain ⟨data, hdata, rfl⟩ := Option.map_eq_some_iff.mp hbeat
  obtain ⟨ds, hrs⟩ : ∃ ds, p.rs = d :: ds := List.head?_eq_some_iff.mp hd
  refine ⟨d, ds, hrs, hdata, rfl, rfl, ?_, ?_⟩
  · rw [List.take_add_one, hdata]
    rfl
  · rw [hrs] at hc
    exact hc

theorem LoadsBack.step (h : LoadsBack c a m executed r p resp) {valid : Bool}
    (hr : i.r = if valid then p.beat else none) :
    LoadsBack c a m executed (r.step a i) (if (r.rgo a i).isSome then p.answer else p)
      (if (r.rgo a i).any ReadBeat.last then (p.rs.head?.map ReadData.load).getD resp else resp) := by
  cases hgo : r.rgo a i with
  | none =>
      simp only [Option.isSome_none, Bool.false_eq_true, if_false, Option.any_none]
      exact {
        datas := h.datas
        collecting := ⟨by simpa [AxiRead.step, hgo] using h.collecting.count,
          by simpa [AxiRead.step, hgo] using h.collecting.data⟩
        sent_lt := h.sent_lt
        sent_nil := h.sent_nil
        response := by
          intro hstate
          have hold : r.respState = true := by
            by_contra hno
            simp [AxiRead.step, hgo, hno] at hstate
          simpa [AxiRead.step, hgo] using h.response hold }
  | some beat =>
      obtain ⟨-, hbeat⟩ := (r.rgo_eq_some a i).mp hgo
      rw [hr] at hbeat
      have hbeat : p.beat = some beat := by
        cases valid with
        | true => exact hbeat
        | false => cases hbeat
      obtain ⟨d, ds, hrs, hdata, hid, hlast, htake, hc⟩ := beat_spec h hbeat
      have hlt : p.sent < d.beats.length := h.sent_lt d (by rw [hrs]; rfl)
      obtain ⟨hhas, hdid⟩ := h.datas d (by rw [hrs]; exact List.mem_cons_self)
      have hmax := a.burstLen_lt hhas.access.sizeLog_le
      have hlen := hhas.length
      have htaken : (d.beats.take p.sent).length = p.sent := List.length_take_of_le (Nat.le_of_lt hlt)
      simp only [Option.isSome_some, if_true, Option.any_some, hrs, List.head?_cons, Option.map_some, Option.getD_some]
      by_cases hend : p.sent + 1 = d.beats.length
      · have hl : beat.last = true := by simp [hlast, hend]
        have hanswer : p.answer = { ars := p.ars, rs := ds, sent := 0 } := by
          rw [ReadPort.answer, hrs]
          exact if_pos hend
        have hcollects := hc.collects (by omega) hgo
        rw [← htake, List.take_of_length_le (by omega)] at hcollects
        rw [hanswer, if_pos hl]
        exact {
          datas := fun d' hd' => h.datas d' (by rw [hrs]; exact List.mem_cons_of_mem _ hd')
          collecting := AxiRead.Collecting.start (by simp [AxiRead.step, hgo, hl])
          sent_lt := by
            intro d' hd'
            have hmem : d' ∈ p.rs := by
              rw [hrs]
              exact List.mem_cons_of_mem _ (List.mem_of_mem_head? hd')
            simp [(h.datas d' hmem).1.length]
          sent_nil := fun _ => rfl
          response := by
            intro _
            refine ⟨?_, d.beats, hhas, hcollects⟩
            simp only [AxiRead.step, hgo]
            rw [hid, hdid] }
      · have hl : beat.last = false := by simp [hlast, hend]
        have hanswer : p.answer = { ars := p.ars, rs := d :: ds, sent := p.sent + 1 } := by
          rw [ReadPort.answer, hrs]
          exact if_neg hend
        have hnext := hc.next (by omega) hgo hl
        rw [← htake] at hnext
        rw [hanswer, hl]
        exact {
          datas := by
            rw [← hrs]
            exact h.datas
          collecting := hnext
          sent_lt := by
            intro d' hd'
            obtain rfl : d = d' := by simpa using hd'
            simp only
            omega
          sent_nil := fun hn => by cases hn
          response := fun hstate => by simp [AxiRead.step, hgo, hl] at hstate }

end

end OpenPiton.NocAxi
