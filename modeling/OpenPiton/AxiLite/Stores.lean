import OpenPiton.AxiLite.Requests

namespace OpenPiton.AxiLite

open L15 (Word)

def Store.packet (cfg : BridgeCfg) (st : Store) : List Word := [storeRespHeader cfg st.header0 st.header2]

/-- What a store writes, and to which bytes. -/
def Store.write (cfg : BridgeCfg) (st : Store) : Word × BitVec 8 :=
  (L2.AmoAlu.swp cfg.swapEndianess st.data, wstrb st.header1)

namespace Bridge

variable {cfg : BridgeCfg} {s : Bridge} {i : BridgeIn} {stores acked sent addrs datas : List Store} {q p : BufStatus}

/-- The store in the request buffer. -/
def reqStore (s : Bridge) : Store := ⟨s.regs.wReqHeader0, s.regs.wReqHeader1, s.regs.wReqHeader2, s.regs.wReqData0⟩

/-- A channel on which the acknowledged stores and those of `sent` have left, by the status of its request buffer and of its
response. -/
structure Channel (s : Bridge) (stores acked sent : List Store) (q p : BufStatus) : Prop where
  stores_eq : stores = acked ++ sent ++ if q = .comp then [s.reqStore] else []
  status : q = .comp ∨ q = .incomp
  sent_iff : p = .incomp ∧ sent = [] ∨ (p = .waitresp ∨ p = .respsend) ∧ ∃ st, sent = [st]

theorem wReqStatus_comp : s.regs.wReqStatus = .comp ↔ s.regs.wAddrReqStatus ≠ .incomp ∨ s.regs.wDataReqStatus ≠ .incomp := by
  rw [BridgeRegs.wReqStatus]
  split
  · simp_all
  · rename_i h
    exact ⟨fun _ => not_and_or.mp h, fun _ => rfl⟩

theorem newStores_done (cfg : BridgeCfg) (h : s.storeDone i = true) : s.newStores i = [(s.step cfg i).reqStore] := by
  have hgo := ((Bool.and_eq_true _ _).mp ((Bool.and_eq_true _ _).mp h).1)
  simp [newStores, h, reqStore, Bridge.step, regsNext, hgo.1, of_decide_eq_true hgo.2]

theorem reqStore_eq (h : s.regs.wReqStatus = .comp) : (s.step cfg i).reqStore = s.reqStore := by
  have hgo : s.storeGo i = false := by simp [storeGo, h]
  simp [reqStore, Bridge.step, regsNext, hgo]

theorem Channel.sent_eq_nil (h : Channel s stores acked sent q .incomp) : sent = [] := by
  rcases h.sent_iff with ⟨-, hnil⟩ | ⟨hp | hp, -⟩
  · exact hnil
  · cases hp
  · cases hp

/-- The stores that have left on a channel after a cycle in which it sends a store or not. -/
theorem Channel.left (i : BridgeIn) (go : Bool) (h : Channel s stores acked sent q p) (hgo : go = true → p = .incomp)
    (hack : s.ackStoreGo i = true → p = .respsend) :
    (if s.ackStoreGo i then acked ++ sent else acked) ++ (if s.ackStoreGo i then [] else if go then [s.reqStore] else sent) =
      acked ++ sent ++ if go then [s.reqStore] else [] := by
  cases ha : s.ackStoreGo i with
  | true =>
      have hng : go = false := by
        by_contra hg
        have hp := hgo (by simpa using hg)
        rw [hack ha] at hp
        cases hp
      simp [hng]
  | false =>
      cases hg : go with
      | true =>
          rw [hgo hg] at h
          simp [h.sent_eq_nil]
      | false => simp

/-- What a channel does in a cycle in which it sends a store or not. -/
theorem Channel.step (cfg : BridgeCfg) (i : BridgeIn) (go : Bool) (h : Channel s stores acked sent q p)
    (hgo : go = true → q = .comp ∧ p = .incomp)
    (hreq : q = .comp → s.regs.wReqStatus = .comp) (hdone : s.storeDone i = true → q = .incomp)
    (hb : s.bGo i = true → p = .waitresp) (hack : s.ackStoreGo i = true → p = .respsend) :
    Channel (s.step cfg i) (stores ++ s.newStores i) (if s.ackStoreGo i then acked ++ sent else acked)
      (if s.ackStoreGo i then [] else if go then [s.reqStore] else sent)
      (if s.storeDone i then .comp else if go then .incomp else q)
      (if go then .waitresp else if s.bGo i then .respsend else if s.ackStoreGo i then .incomp else p) := by
  have hreqs : stores ++ s.newStores i = (acked ++ sent ++ if go then [s.reqStore] else []) ++
      if (if s.storeDone i then BufStatus.comp else if go then .incomp else q) = .comp then [(s.step cfg i).reqStore]
      else [] := by
    cases hd : s.storeDone i with
    | true =>
        have hq := hdone hd
        have hng : go = false := by
          by_contra hg
          rw [hq] at hgo
          cases (hgo (by simpa using hg)).1
        rw [newStores_done cfg hd, h.stores_eq, hq, hng]
        simp
    | false =>
        have hnew : s.newStores i = [] := by simp [newStores, hd]
        rw [hnew, h.stores_eq]
        cases hg : go with
        | true =>
            rw [(hgo hg).1]
            simp
        | false =>
            by_cases hq : q = .comp
            · rw [reqStore_eq (hreq hq)]
              simp
            · simp [hq]
  refine ⟨?_, ?_, ?_⟩
  · rw [hreqs, h.left i go (fun hg => (hgo hg).2) hack]
  · split
    · exact .inl rfl
    · split
      · exact .inr rfl
      · exact h.status
  · cases hg : go with
    | true =>
        have hna : s.ackStoreGo i = false := by
          by_contra ha
          have := hack (by simpa using ha)
          rw [(hgo hg).2] at this
          cases this
        rw [hna]
        exact .inr ⟨.inl rfl, s.reqStore, rfl⟩
    | false =>
        cases hbg : s.bGo i with
        | true =>
            have hna : s.ackStoreGo i = false := by
              by_contra ha
              have := hack (by simpa using ha)
              rw [hb hbg] at this
              cases this
            rw [hna]
            rcases h.sent_iff with ⟨hp, -⟩ | ⟨-, hst⟩
            · rw [hb hbg] at hp
              cases hp
            · exact .inr ⟨.inr rfl, hst⟩
        | false =>
            cases ha : s.ackStoreGo i with
            | true => exact .inl ⟨rfl, rfl⟩
            | false => exact h.sent_iff

theorem respsend_next {go b ack : Bool} (hgo : go = true → p = .incomp) (hb : b = true → p = .waitresp)
    (hack : ack = true → p = .respsend) :
    (if go then BufStatus.waitresp else if b then .respsend else if ack then .incomp else p) = .respsend ↔
      b = true ∨ p = .respsend ∧ ack = false := by
  cases go with
  | true =>
      have hp := hgo rfl
      have hnb : b ≠ true := fun h => by simp [hb h] at hp
      simp [hp, hnb]
  | false =>
      cases b with
      | true => simp
      | false =>
          cases ack with
          | true => simp
          | false => simp

/-- The stores that were acknowledged, and those whose address, and whose data, have left since. -/
structure StorePath (cfg : BridgeCfg) (s : Bridge) (stores acked addrs datas : List Store) : Prop where
  addr : Channel s stores acked addrs s.regs.wAddrReqStatus s.regs.wAddrRespStatus
  data : Channel s stores acked datas s.regs.wDataReqStatus s.regs.wDataRespStatus
  aws_eq : s.aws = (acked ++ addrs).map fun st => axiAddr st.header1
  ws_eq : s.ws = (acked ++ datas).map (Store.write cfg)
  header_eq : ∀ st ∈ addrs, s.regs.wRespHeader0 = storeRespHeader cfg st.header0 st.header2
  respsend_iff : s.regs.wAddrRespStatus = .respsend ↔ s.regs.wDataRespStatus = .respsend
  bs_eq : s.bs = acked.length + if s.regs.wAddrRespStatus = .respsend then 1 else 0

theorem storeDone_incomp (h : s.storeDone i = true) : s.regs.wAddrReqStatus = .incomp ∧ s.regs.wDataReqStatus = .incomp := by
  have hgo := ((Bool.and_eq_true _ _).mp ((Bool.and_eq_true _ _).mp h).1).1
  exact wReqStatus_incomp_iff.mp (by simpa using ((Bool.and_eq_true _ _).mp hgo).2)

namespace StorePath

variable (h : StorePath cfg s stores acked addrs datas)

include h

theorem awGo_comp (hgo : s.awGo i = true) : s.regs.wAddrReqStatus = .comp ∧ s.regs.wAddrRespStatus = .incomp := by
  obtain ⟨hreq, hresp⟩ : s.regs.wReqStatus = .comp ∧ s.regs.wAddrRespStatus = .incomp := by
    simpa [awGo, BridgeRegs.awvalid] using ((Bool.and_eq_true _ _).mp hgo).1
  refine ⟨?_, hresp⟩
  by_contra hne
  have hq := h.addr.status.resolve_left hne
  have hd := h.data.status.resolve_right ((wReqStatus_comp.mp hreq).resolve_left (by simp [hq]))
  have hnil : addrs = [] := (hresp ▸ h.addr).sent_eq_nil
  have hlen := congrArg List.length (h.addr.stores_eq.symm.trans h.data.stores_eq)
  simp [hq, hd, hnil] at hlen

theorem wGo_comp (hgo : s.wGo i = true) : s.regs.wDataReqStatus = .comp ∧ s.regs.wDataRespStatus = .incomp := by
  obtain ⟨hreq, hresp⟩ : s.regs.wReqStatus = .comp ∧ s.regs.wDataRespStatus = .incomp := by
    simpa [wGo, BridgeRegs.wvalid] using ((Bool.and_eq_true _ _).mp hgo).1
  refine ⟨?_, hresp⟩
  by_contra hne
  have hq := h.data.status.resolve_left hne
  have hd := h.addr.status.resolve_right ((wReqStatus_comp.mp hreq).resolve_right (by simp [hq]))
  have hnil : datas = [] := (hresp ▸ h.data).sent_eq_nil
  have hlen := congrArg List.length (h.addr.stores_eq.symm.trans h.data.stores_eq)
  simp [hq, hd, hnil] at hlen

theorem bGo_waitresp (hgo : s.bGo i = true) : s.regs.wAddrRespStatus = .waitresp ∧ s.regs.wDataRespStatus = .waitresp := by
  have hs : s.regs.wRespStatus = .waitresp := by simpa [bGo, BridgeRegs.bready] using ((Bool.and_eq_true _ _).mp hgo).1
  have hiff := h.respsend_iff
  unfold BridgeRegs.wRespStatus at hs
  rcases h.addr.sent_iff with ⟨ha, -⟩ | ⟨ha | ha, -⟩ <;> rcases h.data.sent_iff with ⟨hd, -⟩ | ⟨hd | hd, -⟩ <;>
    simp [ha, hd] at hs hiff ⊢

theorem ackStoreGo_respsend (hgo : s.ackStoreGo i = true) :
    s.regs.wAddrRespStatus = .respsend ∧ s.regs.wDataRespStatus = .respsend := by
  have hs : s.regs.wRespStatus = .respsend := by
    simpa [BridgeRegs.wRespVal] using ((Bool.and_eq_true _ _).mp ((Bool.and_eq_true _ _).mp hgo).1).2
  unfold BridgeRegs.wRespStatus at hs
  rcases h.addr.sent_iff with ⟨ha, -⟩ | ⟨ha | ha, -⟩ <;> rcases h.data.sent_iff with ⟨hd, -⟩ | ⟨hd | hd, -⟩ <;>
    simp [ha, hd] at hs ⊢

theorem acked_both (hgo : s.ackStoreGo i = true) : ∃ st, addrs = [st] ∧ datas = [st] := by
  obtain ⟨ha, hd⟩ := h.ackStoreGo_respsend hgo
  obtain ⟨st, hst⟩ : ∃ st, addrs = [st] := by
    rcases h.addr.sent_iff with ⟨hp, -⟩ | ⟨-, hst⟩
    · rw [ha] at hp
      cases hp
    · exact hst
  obtain ⟨st', hst'⟩ : ∃ st, datas = [st] := by
    rcases h.data.sent_iff with ⟨hp, -⟩ | ⟨-, hst⟩
    · rw [hd] at hp
      cases hp
    · exact hst
  have heq := h.addr.stores_eq.symm.trans h.data.stores_eq
  rw [hst, hst', List.append_assoc, List.append_assoc] at heq
  have hcons := List.append_cancel_left heq
  rw [List.singleton_append, List.singleton_append, List.cons.injEq] at hcons
  exact ⟨st, hst, by rw [hst', hcons.1]⟩

theorem step (i : BridgeIn) : ∃ addrs' datas', StorePath cfg (s.step cfg i) (stores ++ s.newStores i)
    (if s.ackStoreGo i then acked ++ addrs else acked) addrs' datas' := by
  have haddr := h.addr.step cfg i (s.awGo i) h.awGo_comp (fun hq => wReqStatus_comp.mpr (.inl (by simp [hq])))
    (fun hd => (storeDone_incomp hd).1) (fun hb => (h.bGo_waitresp hb).1) fun ha => (h.ackStoreGo_respsend ha).1
  have hdata := h.data.step cfg i (s.wGo i) h.wGo_comp (fun hq => wReqStatus_comp.mpr (.inr (by simp [hq])))
    (fun hd => (storeDone_incomp hd).2) (fun hb => (h.bGo_waitresp hb).2) fun ha => (h.ackStoreGo_respsend ha).2
  have hlefta := h.addr.left i (s.awGo i) (fun hg => (h.awGo_comp hg).2) fun ha => (h.ackStoreGo_respsend ha).1
  have hleftd := h.data.left i (s.wGo i) (fun hg => (h.wGo_comp hg).2) fun ha => (h.ackStoreGo_respsend ha).2
  have hacked : (if s.ackStoreGo i then acked ++ datas else acked) = if s.ackStoreGo i then acked ++ addrs else acked := by
    split
    · obtain ⟨st, ha, hd⟩ := h.acked_both ‹_›
      rw [ha, hd]
    · rfl
  rw [hacked] at hdata hleftd
  have haddr' : (s.step cfg i).regs.wAddrRespStatus = .respsend ↔
      s.bGo i = true ∨ s.regs.wAddrRespStatus = .respsend ∧ s.ackStoreGo i = false :=
    respsend_next (fun hg => (h.awGo_comp hg).2) (fun hb => (h.bGo_waitresp hb).1) fun ha => (h.ackStoreGo_respsend ha).1
  have hdata' : (s.step cfg i).regs.wDataRespStatus = .respsend ↔
      s.bGo i = true ∨ s.regs.wDataRespStatus = .respsend ∧ s.ackStoreGo i = false :=
    respsend_next (fun hg => (h.wGo_comp hg).2) (fun hb => (h.bGo_waitresp hb).2) fun ha => (h.ackStoreGo_respsend ha).2
  refine ⟨_, _, haddr, hdata, ?_, ?_, ?_, ?_, ?_⟩
  · rw [hlefta]
    cases hg : s.awGo i <;> simp [Bridge.step, hg, h.aws_eq, reqStore]
  · rw [hleftd]
    cases hg : s.wGo i <;> simp [Bridge.step, hg, h.ws_eq, reqStore, Store.write, BridgeRegs.wdata]
  · intro st hst
    cases hg : s.awGo i with
    | true =>
        have hna : s.ackStoreGo i = false := by
          by_contra ha
          have hp := (h.awGo_comp hg).2
          rw [(h.ackStoreGo_respsend (by simpa using ha)).1] at hp
          cases hp
        simp only [hna, hg, Bool.false_eq_true, if_false, if_true, List.mem_singleton] at hst
        simp [Bridge.step, regsNext, hg, hst, reqStore]
    | false =>
        have hmem : st ∈ addrs := by
          cases ha : s.ackStoreGo i <;> simp [ha, hg] at hst
          exact hst
        simp [Bridge.step, regsNext, hg, h.header_eq st hmem]
  · exact haddr'.trans (Iff.trans (by rw [h.respsend_iff]) hdata'.symm)
  · simp only [haddr']
    cases hb : s.bGo i with
    | true =>
        have hp := (h.bGo_waitresp hb).1
        have hna : s.ackStoreGo i = false := by
          by_contra ha
          rw [(h.ackStoreGo_respsend (by simpa using ha)).1] at hp
          cases hp
        simp [Bridge.step, hb, hna, h.bs_eq, hp]
    | false =>
        cases ha : s.ackStoreGo i with
        | true =>
            obtain ⟨st, hst, -⟩ := h.acked_both ha
            simp [Bridge.step, hb, h.bs_eq, (h.ackStoreGo_respsend ha).1, hst]
        | false => simp [Bridge.step, hb, h.bs_eq]

end StorePath

end Bridge

end OpenPiton.AxiLite
