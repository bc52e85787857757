import OpenPiton.AxiLite.Loads
import OpenPiton.AxiLite.Stores
import OpenPiton.Lib.Fair

namespace OpenPiton.AxiLite

open Noc1 (fieldLength)

/-- The ports at which the bridge waits for the other side. -/
inductive Port
  | splitterVal
  | splitterRdy
  | ar
  | r
  | aw
  | w
  | b

def BridgeIn.ready (i : BridgeIn) : Port → Prop
  | .splitterVal => i.val = true
  | .splitterRdy => i.rdy = true
  | .ar => i.arready = true
  | .r => i.rdata.isSome = true
  | .aw => i.awready = true
  | .w => i.wready = true
  | .b => i.bvalid = true

/-- What is left to do for the load that is answered. -/
def loadRespWork (p : BufStatus) (counter : BitVec 8) : Nat :=
  match p with
  | .waitresp => 257
  | .respsend => counter.toNat + 1
  | _ => 0

/-- What is left to do for a store on a channel. -/
def channelWork (q p : BufStatus) : Nat :=
  (if q = .comp then 3 else 0) +
    match p with
    | .waitresp => 2
    | .respsend => 1
    | _ => 0

namespace Bridge

variable {cfg : BridgeCfg} {s : Bridge} {i : BridgeIn}

/-- Every request was read and answered. -/
structure Rest (s : Bridge) : Prop where
  pending : s.pending = []
  rReqStatus : s.regs.rReqStatus = .incomp
  rRespStatus : s.regs.rRespStatus = .incomp
  wReqStatus : s.regs.wReqStatus = .incomp
  wAddrRespStatus : s.regs.wAddrRespStatus = .incomp
  wDataRespStatus : s.regs.wDataRespStatus = .incomp

def wants (s : Bridge) : Port → Prop
  | .splitterVal => s.pending ≠ [] ∧ s.regs.rReqStatus = .incomp ∧ s.regs.wReqStatus = .incomp
  | .splitterRdy => s.regs.rRespStatus = .respsend ∨ s.regs.wRespStatus = .respsend
  | .ar => s.regs.arvalid = true
  | .r => s.regs.rready = true
  | .aw => s.regs.awvalid = true
  | .w => s.regs.wvalid = true
  | .b => s.regs.bready = true

def work (s : Bridge) : Nat :=
  300 * s.pending.length + (if s.regs.rReqStatus = .comp then 258 else 0) +
    loadRespWork s.regs.rRespStatus s.regs.ackLoadCounter + channelWork s.regs.wAddrReqStatus s.regs.wAddrRespStatus +
    channelWork s.regs.wDataReqStatus s.regs.wDataRespStatus

/-- Something crosses one of the ports. -/
def moves (s : Bridge) (i : BridgeIn) : Nat :=
  (s.go i).toNat + (s.arGo i).toNat + (s.rGo i).toNat + (s.ackLoadGo i).toNat + (s.awGo i).toNat + (s.wGo i).toNat +
    (s.bGo i).toNat + (s.ackStoreGo i).toNat

/-- The statuses that the buffers of the loads take, with the stores on their channels. -/
structure Live (cfg : BridgeCfg) (s : Bridge) : Prop where
  rReqStatus : s.regs.rReqStatus = .comp ∨ s.regs.rReqStatus = .incomp
  rRespStatus : s.regs.rRespStatus = .incomp ∨ s.regs.rRespStatus = .waitresp ∨ s.regs.rRespStatus = .respsend
  stores : ∃ stores acked addrs datas, StorePath cfg s stores acked addrs datas

theorem Live.step (h : s.Live cfg) : (s.step cfg i).Live cfg := by
  obtain ⟨stores, acked, addrs, datas, hst⟩ := h.stores
  obtain ⟨addrs', datas', hst'⟩ := hst.step i
  refine ⟨?_, ?_, _, _, addrs', datas', hst'⟩
  · have hreq := h.rReqStatus
    simp only [Bridge.step, regsNext]
    split
    · exact .inl rfl
    · split
      · exact .inr rfl
      · exact hreq
  · have hresp := h.rRespStatus
    simp only [Bridge.step, regsNext]
    split
    · exact .inr (.inl rfl)
    · split
      · exact .inr (.inr rfl)
      · split
        · exact .inl rfl
        · exact hresp

theorem reqWork_step {q : BufStatus} {go done : Bool} (hgo : go = true → q = .comp)
    (hdone : done = true → q = .incomp) (k : Nat) :
    (if (if done then .comp else if go then .incomp else q) = BufStatus.comp then k else 0) + k * go.toNat ≤
      (if q = .comp then k else 0) + k * done.toNat := by
  cases done with
  | true => cases go <;> simp_all
  | false => cases go <;> simp_all

theorem loadRespWork_step (cfg : BridgeCfg) (s : Bridge) (i : BridgeIn) :
    loadRespWork (s.step cfg i).regs.rRespStatus (s.step cfg i).regs.ackLoadCounter + ((s.rGo i).toNat + (s.ackLoadGo i).toNat) ≤
      loadRespWork s.regs.rRespStatus s.regs.ackLoadCounter + 257 * (s.arGo i).toNat := by
  have hlen := (fieldLength s.regs.rRespHeader0).isLt
  cases hp : s.regs.rRespStatus with
  | incomp =>
      have hr : s.rGo i = false := by simp [rGo, BridgeRegs.rready, hp]
      have hack : s.ackLoadGo i = false := by simp [ackLoadGo, BridgeRegs.rRespVal, hp]
      cases har : s.arGo i <;> simp [step, regsNext, hp, hr, hack, har, loadRespWork]
  | comp =>
      have har : s.arGo i = false := by simp [arGo, BridgeRegs.arvalid, hp]
      have hr : s.rGo i = false := by simp [rGo, BridgeRegs.rready, hp]
      have hack : s.ackLoadGo i = false := by simp [ackLoadGo, BridgeRegs.rRespVal, hp]
      simp [step, regsNext, hp, hr, hack, har, loadRespWork]
  | waitresp =>
      have har : s.arGo i = false := by simp [arGo, BridgeRegs.arvalid, hp]
      have hack : s.ackLoadGo i = false := by simp [ackLoadGo, BridgeRegs.rRespVal, hp]
      cases hr : s.rGo i with
      | true =>
          simp [step, regsNext, hp, hr, hack, har, loadRespWork]
          omega
      | false => simp [step, regsNext, hp, hr, hack, har, loadRespWork]
  | respsend =>
      have har : s.arGo i = false := by simp [arGo, BridgeRegs.arvalid, hp]
      have hr : s.rGo i = false := by simp [rGo, BridgeRegs.rready, hp]
      cases hack : s.ackLoadGo i with
      | true =>
          by_cases hz : s.regs.ackLoadCounter = 0
          · simp [step, regsNext, hp, hr, hack, har, hz, loadRespWork]
          · have hne : ¬ s.regs.ackLoadCounter = 0#8 := hz
            have hsub : (s.regs.ackLoadCounter - 1).toNat + 1 = s.regs.ackLoadCounter.toNat := by
              have hpos := Counter.toNat_pos hz
              rw [Counter.toNat_pred hpos, Nat.sub_add_cancel hpos]
            simp [step, regsNext, hp, hr, hack, har, hne, loadRespWork]
            omega
      | false => simp [step, regsNext, hp, hr, hack, har, loadRespWork]

theorem channelWork_step {q p : BufStatus} {go b ack done : Bool} (hgo : go = true → q = .comp ∧ p = .incomp)
    (hb : b = true → p = .waitresp) (hack : ack = true → p = .respsend) (hdone : done = true → q = .incomp) :
    channelWork (if done then .comp else if go then .incomp else q)
        (if go then .waitresp else if b then .respsend else if ack then .incomp else p) +
      (go.toNat + b.toNat + ack.toNat) ≤ channelWork q p + 3 * done.toNat := by
  have hq := reqWork_step (fun hg => (hgo hg).1) hdone 3
  have hp : channelWork .incomp (if go then .waitresp else if b then .respsend else if ack then .incomp else p) +
      (b.toNat + ack.toNat) ≤ channelWork .incomp p + 2 * go.toNat := by
    cases go with
    | true => cases b <;> cases ack <;> simp_all [channelWork]
    | false => cases b <;> cases ack <;> simp_all [channelWork]
  simp only [channelWork, reduceCtorEq, if_false, Nat.zero_add] at hp ⊢
  omega

theorem pending_step (cfg : BridgeCfg) (s : Bridge) (i : BridgeIn) :
    (s.step cfg i).pending.length + (s.go i).toNat = s.pending.length := by
  cases hgo : s.go i with
  | true =>
      have hne : s.pending ≠ [] := by
        have hval := ((Bool.and_eq_true _ _).mp hgo).1
        simpa [val] using ((Bool.and_eq_true _ _).mp hval).2
      simp only [step, hgo, if_true, List.length_tail, Bool.toNat_true]
      exact Nat.sub_add_cancel (List.length_pos_of_ne_nil hne)
  | false => simp [step, hgo]

theorem loadDone_go (h : s.loadDone i = true) : s.go i = true ∧ s.msgTypeNext i = .load ∧ s.regs.rReqStatus = .incomp := by
  have hgo := ((Bool.and_eq_true _ _).mp h).1
  simp only [loadGo, Bool.and_eq_true, decide_eq_true_eq] at hgo
  exact ⟨hgo.1.2, hgo.1.1, hgo.2⟩

theorem storeDone_go (h : s.storeDone i = true) : s.go i = true ∧ s.msgTypeNext i = .store := by
  have hgo := ((Bool.and_eq_true _ _).mp ((Bool.and_eq_true _ _).mp h).1).1
  simp only [storeGo, Bool.and_eq_true, decide_eq_true_eq] at hgo
  exact ⟨hgo.1.2, hgo.1.1⟩

theorem done_le_go (s : Bridge) (i : BridgeIn) : (s.loadDone i).toNat + (s.storeDone i).toNat ≤ (s.go i).toNat := by
  cases hl : s.loadDone i with
  | true =>
      cases hst : s.storeDone i with
      | true =>
          have htype := (loadDone_go hl).2.1
          rw [(storeDone_go hst).2] at htype
          cases htype
      | false => simp [(loadDone_go hl).1]
  | false =>
      cases hst : s.storeDone i with
      | true => simp [(storeDone_go hst).1]
      | false => simp

/-- Every use of a port takes from the work that is left. -/
theorem work_step (h : s.Live cfg) (i : BridgeIn) : (s.step cfg i).work + s.moves i ≤ s.work := by
  obtain ⟨stores, acked, addrs, datas, hst⟩ := h.stores
  have hpending := pending_step cfg s i
  have hdone := done_le_go s i
  have hreq := reqWork_step (fun hg : s.arGo i = true => (arGo_comp hg).1)
    (fun hd : s.loadDone i = true => (loadDone_go hd).2.2) 258
  have hresp := loadRespWork_step cfg s i
  have haddr := channelWork_step (fun hg : s.awGo i = true => hst.awGo_comp hg)
    (fun hb : s.bGo i = true => (hst.bGo_waitresp hb).1)
    (fun ha : s.ackStoreGo i = true => (hst.ackStoreGo_respsend ha).1) fun hd : s.storeDone i = true => (storeDone_incomp hd).1
  have hdata := channelWork_step (fun hg : s.wGo i = true => hst.wGo_comp hg)
    (fun hb : s.bGo i = true => (hst.bGo_waitresp hb).2)
    (fun ha : s.ackStoreGo i = true => (hst.ackStoreGo_respsend ha).2) fun hd : s.storeDone i = true => (storeDone_incomp hd).2
  rw [work, work, moves]
  change _ +
    (if (if s.loadDone i then BufStatus.comp else if s.arGo i then .incomp else s.regs.rReqStatus) = .comp then 258 else 0) + _ +
    channelWork (if s.storeDone i then .comp else if s.awGo i then .incomp else s.regs.wAddrReqStatus)
      (if s.awGo i then .waitresp else if s.bGo i then .respsend else if s.ackStoreGo i then .incomp
        else s.regs.wAddrRespStatus) +
    channelWork (if s.storeDone i then .comp else if s.wGo i then .incomp else s.regs.wDataReqStatus)
      (if s.wGo i then .waitresp else if s.bGo i then .respsend else if s.ackStoreGo i then .incomp else s.regs.wDataRespStatus) +
    _ ≤ _
  omega

/-- A cycle in which no port is used leaves the statuses and what is still to come. -/
theorem step_still (cfg : BridgeCfg) (h : s.moves i = 0) :
    (s.step cfg i).pending = s.pending ∧ (s.step cfg i).regs.rReqStatus = s.regs.rReqStatus ∧
    (s.step cfg i).regs.rRespStatus = s.regs.rRespStatus ∧ (s.step cfg i).regs.wAddrReqStatus = s.regs.wAddrReqStatus ∧
    (s.step cfg i).regs.wDataReqStatus = s.regs.wDataReqStatus ∧ (s.step cfg i).regs.wAddrRespStatus = s.regs.wAddrRespStatus ∧
    (s.step cfg i).regs.wDataRespStatus = s.regs.wDataRespStatus ∧
    (s.regs.rRespStatus = .respsend → (s.step cfg i).regs.ackLoadCounter = s.regs.ackLoadCounter) := by
  simp only [moves, Nat.add_eq_zero_iff, Bool.toNat_eq_zero] at h
  obtain ⟨⟨⟨⟨⟨⟨⟨hgo, har⟩, hr⟩, hal⟩, haw⟩, hw⟩, hb⟩, has⟩ := h
  obtain ⟨-, -, hld, hsd⟩ := stalled hgo
  simp +contextual [step, regsNext, hgo, har, hr, hal, haw, hw, hb, has, hld, hsd]

theorem work_still (h : s.moves i = 0) : (s.step cfg i).work = s.work ∧ ∀ p, s.wants p → (s.step cfg i).wants p := by
  obtain ⟨hpending, hrq, hrr, haq, hdq, har, hdr, hcount⟩ := step_still cfg h
  have hwr : (s.step cfg i).regs.wRespStatus = s.regs.wRespStatus := by
    rw [BridgeRegs.wRespStatus, BridgeRegs.wRespStatus, har, hdr]
  have hwq : (s.step cfg i).regs.wReqStatus = s.regs.wReqStatus := by rw [BridgeRegs.wReqStatus, BridgeRegs.wReqStatus, haq, hdq]
  constructor
  · rw [work, work, hpending, hrq, hrr, haq, hdq, har, hdr]
    cases hp : s.regs.rRespStatus with
    | respsend => rw [hcount hp]
    | _ => rfl
  · intro p hp
    cases p <;>
      simpa only [wants, BridgeRegs.arvalid, BridgeRegs.rready, BridgeRegs.awvalid, BridgeRegs.wvalid, BridgeRegs.bready,
        hpending, hrq, hrr, hwq, hwr, har, hdr] using hp

theorem moves_pos {p : Port} (hp : s.wants p) (hready : i.ready p) : 0 < s.moves i := by
  rw [moves]
  cases p with
  | splitterVal =>
      have hgo : s.go i = true := by
        have hval : s.val i = true := by simpa [val] using ⟨hready, hp.1⟩
        have hrdy : s.rdyOut i = true := by
          cases htype : s.msgTypeNext i <;> simp [rdyOut, htype, hp.2.1, hp.2.2]
        rw [go, hval, hrdy]
        rfl
      simp [hgo]
  | splitterRdy =>
      have hack : s.ackLoadGo i = true ∨ s.ackStoreGo i = true := by
        change i.rdy = true at hready
        have hsel : s.regs.ackMuxSel = .load ∧ s.regs.rRespVal = true ∨ s.regs.ackMuxSel = .store ∧ s.regs.wRespVal = true := by
          cases hr : s.regs.rRespVal with
          | true =>
              cases hw : s.regs.wRespVal with
              | true => cases hsel : s.regs.ackMuxSel <;> simp
              | false => simp [BridgeRegs.ackMuxSel, hr, hw]
          | false =>
              have hw : s.regs.wRespVal = true := by
                rw [BridgeRegs.rRespVal, decide_eq_false_iff_not] at hr
                rw [BridgeRegs.wRespVal, decide_eq_true_eq]
                exact hp.resolve_left hr
              simp [BridgeRegs.ackMuxSel, hr, hw]
        rcases hsel with ⟨hsel, hval⟩ | ⟨hsel, hval⟩
        · exact .inl (by rw [ackLoadGo, hsel, hval, hready]; rfl)
        · exact .inr (by rw [ackStoreGo, hsel, hval, hready]; rfl)
      rcases hack with h | h <;> simp [h]
  | ar =>
      have hgo : s.arGo i = true := (Bool.and_eq_true _ _).mpr ⟨hp, hready⟩
      simp [hgo]
  | r =>
      have hgo : s.rGo i = true := (Bool.and_eq_true _ _).mpr ⟨hp, hready⟩
      simp [hgo]
  | aw =>
      have hgo : s.awGo i = true := (Bool.and_eq_true _ _).mpr ⟨hp, hready⟩
      simp [hgo]
  | w =>
      have hgo : s.wGo i = true := (Bool.and_eq_true _ _).mpr ⟨hp, hready⟩
      simp [hgo]
  | b =>
      have hgo : s.bGo i = true := (Bool.and_eq_true _ _).mpr ⟨hp, hready⟩
      simp [hgo]

/-- Without a store in the request buffer its address has left when its data have. -/
theorem StorePath.resp_incomp {stores acked addrs datas : List Store} (h : StorePath cfg s stores acked addrs datas)
    (hreq : s.regs.wReqStatus = .incomp) : s.regs.wAddrRespStatus = .incomp ↔ s.regs.wDataRespStatus = .incomp := by
  have hq := wReqStatus_incomp_iff.mp hreq
  have hsame : addrs = datas := by
    have heq := h.addr.stores_eq.symm.trans h.data.stores_eq
    rw [hq.1, hq.2, if_neg (by decide), List.append_nil, List.append_nil] at heq
    exact List.append_cancel_left heq
  have hnil : ∀ {q p sent}, Channel s stores acked sent q p → (p = .incomp ↔ sent = []) := by
    intro q p sent hc
    constructor
    · rintro rfl
      exact hc.sent_eq_nil
    · intro hs
      rcases hc.sent_iff with ⟨hp, -⟩ | ⟨-, st, hst⟩
      · exact hp
      · rw [hs] at hst
        cases hst
  rw [hnil h.addr, hnil h.data, hsame]

/-- A store whose address and data have left waits for its response, or to be acknowledged. -/
theorem StorePath.wants_sent {stores acked addrs datas : List Store} (h : StorePath cfg s stores acked addrs datas)
    (ha : s.regs.wAddrRespStatus ≠ .incomp) (hd : s.regs.wDataRespStatus ≠ .incomp) : s.wants .b ∨ s.wants .splitterRdy := by
  have hiff := h.respsend_iff
  have haddr : s.regs.wAddrRespStatus = .waitresp ∨ s.regs.wAddrRespStatus = .respsend :=
    (h.addr.sent_iff.resolve_left fun hs => ha hs.1).1
  have hdata : s.regs.wDataRespStatus = .waitresp ∨ s.regs.wDataRespStatus = .respsend :=
    (h.data.sent_iff.resolve_left fun hs => hd hs.1).1
  rcases haddr with haddr | haddr
  · have hdata' := hdata.resolve_right fun he => by simp [haddr, he] at hiff
    exact .inl (by simp [wants, BridgeRegs.bready, BridgeRegs.wRespStatus, haddr, hdata'])
  · exact .inr (.inr (by simp [BridgeRegs.wRespStatus, haddr, hiff.mp haddr]))

theorem wants_of_not_rest (h : s.Live cfg) (hrest : ¬ s.Rest) : ∃ p, s.wants p := by
  obtain ⟨stores, acked, addrs, datas, hst⟩ := h.stores
  rcases h.rRespStatus with hresp | hresp | hresp
  · rcases h.rReqStatus with hreq | hreq
    · exact ⟨.ar, by simp [wants, BridgeRegs.arvalid, hreq, hresp]⟩
    · by_cases hboth : s.regs.wAddrRespStatus ≠ .incomp ∧ s.regs.wDataRespStatus ≠ .incomp
      · rcases hst.wants_sent hboth.1 hboth.2 with hp | hp
        · exact ⟨_, hp⟩
        · exact ⟨_, hp⟩
      · have hone : s.regs.wAddrRespStatus = .incomp ∨ s.regs.wDataRespStatus = .incomp := by
          rcases not_and_or.mp hboth with h | h
          · exact .inl (not_not.mp h)
          · exact .inr (not_not.mp h)
        by_cases hw : s.regs.wReqStatus = .incomp
        · have hiff := hst.resp_incomp hw
          have haddr : s.regs.wAddrRespStatus = .incomp := hone.elim id hiff.mpr
          exact ⟨.splitterVal, fun hnil => hrest ⟨hnil, hreq, hresp, hw, haddr, hiff.mp haddr⟩, hreq, hw⟩
        · have hcomp : s.regs.wReqStatus = .comp := by
            rw [BridgeRegs.wReqStatus] at hw ⊢
            split
            · exact absurd (if_pos ‹_›) hw
            · rfl
          rcases hone with ha | hd
          · exact ⟨.aw, by simp [wants, BridgeRegs.awvalid, hcomp, ha]⟩
          · exact ⟨.w, by simp [wants, BridgeRegs.wvalid, hcomp, hd]⟩
  · exact ⟨.r, by simp [wants, BridgeRegs.rready, hresp]⟩
  · exact ⟨.splitterRdy, .inl hresp⟩

/-- Where all ports are ready again and again, every request is read and answered. -/
theorem comes_to_rest (h : s.Live cfg) {is : Nat → BridgeIn} (hfair : ∀ p n, ∃ m, n ≤ m ∧ (is m).ready p) :
    ∃ n, (Machine.trace (Bridge.step cfg) s is n).Rest := by
  refine Machine.comes_to_rest (Live cfg) work wants (fun s i hs => hs.step)
    (fun s hs hrest => wants_of_not_rest hs hrest) (fun s i p hs hp hr => ?_) (fun s i hs => ?_) h hfair
  · have hle := work_step hs i
    have hpos := moves_pos hp hr
    omega
  · rcases Nat.eq_zero_or_pos (s.moves i) with hz | hpos
    · exact .inr (work_still hz)
    · have hle := work_step hs i
      exact .inl (by omega)

end Bridge

end OpenPiton.AxiLite
