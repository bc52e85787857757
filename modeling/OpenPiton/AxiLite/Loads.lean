import OpenPiton.AxiLite.Requests

namespace OpenPiton.AxiLite

open L15 (Word)
open Noc1 (fieldLength fieldType)

theorem fieldLength_respHeader (header0 header2 : Word) (length type : BitVec 8) :
    fieldLength (respHeader header0 header2 length type) = length := by
  unfold fieldLength respHeader
  ext k hk
  grind

/-- The response to a load whose data are `rdata`. -/
def Load.packet (cfg : BridgeCfg) (l : Load) (rdata : Word) : List Word :=
  loadRespHeader cfg l.header0 l.header1 l.header2 ::
    List.replicate (loadRespLength l.header0 l.header1).toNat (rdataMasked cfg l.header1 rdata)

/-- Requests with the same size, and with the same place in the word where that is looked at, get the same data. -/
theorem rdataMasked_congr {cfg : BridgeCfg} {header1 header1' : Word} (rdata : Word)
    (h : cfg.slaveRespBytewidth ≤ 0 → fieldDataSize header1 = fieldDataSize header1' ∧
      (cfg.alignRdata = true → (axiAddr header1).extractLsb' 0 3 = (axiAddr header1').extractLsb' 0 3)) :
    rdataMasked cfg header1 rdata = rdataMasked cfg header1' rdata := by
  rw [rdataMasked, rdataMasked]
  by_cases hw : cfg.slaveRespBytewidth ≤ 0
  · obtain ⟨hsize, haddr⟩ := h hw
    have hshift : rdataShifted cfg header1 rdata = rdataShifted cfg header1' rdata := by
      rw [rdataShifted, rdataShifted]
      split
      · rw [haddr ‹_›]
      · rfl
    simp only [hsize, hshift]
  · simp only [if_neg hw]

namespace Bridge

variable {cfg : BridgeCfg} {s : Bridge} {i : BridgeIn} {loads asked : List Load}

/-- When data come for a load, the size and the place in the word that are looked at are still its own. -/
def KeepsRequest (cfg : BridgeCfg) (s : Bridge) (i : BridgeIn) : Prop :=
  s.rGo i = true → cfg.slaveRespBytewidth ≤ 0 → fieldDataSize s.regs.rReqHeader1 = fieldDataSize s.asked ∧
    (cfg.alignRdata = true → (axiAddr s.regs.rReqHeader1).extractLsb' 0 3 = (axiAddr s.asked).extractLsb' 0 3)

/-- The load in the request buffer. -/
def reqLoad (s : Bridge) : Load := ⟨s.regs.rReqHeader0, s.regs.rReqHeader1, s.regs.rReqHeader2⟩

/-- The loads that were read, those whose address has left, and the one in the buffer. -/
structure Asked (s : Bridge) (loads asked : List Load) : Prop where
  loads_eq : loads = asked ++ if s.regs.rReqStatus = .comp then [s.reqLoad] else []
  status : s.regs.rReqStatus = .comp ∨ s.regs.rReqStatus = .incomp
  ars_eq : s.ars = asked.map fun l => axiAddr l.header1

theorem Asked.step_idle (h : s.Asked loads asked) (har : s.arGo i = false) :
    (s.step cfg i).Asked (loads ++ s.newLoads i) asked := by
  have hars : (s.step cfg i).ars = s.ars := by simp [Bridge.step, har]
  cases hd : s.loadDone i with
  | true =>
      rw [loadDone, Bool.and_eq_true, decide_eq_true_eq] at hd
      obtain ⟨hgo, hnext⟩ := hd
      have hincomp : s.regs.rReqStatus = .incomp := by simpa using ((Bool.and_eq_true _ _).mp hgo).2
      have hload : (s.step cfg i).reqLoad = ⟨s.regs.rReqHeader0, s.regs.rReqHeader1, s.data⟩ := by
        simp [reqLoad, Bridge.step, regsNext, hgo, hnext]
      have hstatus : (s.step cfg i).regs.rReqStatus = .comp := by simp [Bridge.step, regsNext, loadDone, hgo, hnext]
      refine ⟨?_, .inl hstatus, hars.trans h.ars_eq⟩
      rw [h.loads_eq, hincomp, if_neg (by decide), List.append_nil, hstatus, if_pos rfl, hload, newLoads, loadDone, hgo, hnext]
      rfl
  | false =>
      have hstatus : (s.step cfg i).regs.rReqStatus = s.regs.rReqStatus := by simp [Bridge.step, regsNext, hd, har]
      refine ⟨?_, hstatus.symm ▸ h.status, hars.trans h.ars_eq⟩
      rw [newLoads, hd, if_neg (by decide), List.append_nil, h.loads_eq, hstatus]
      rcases h.status with hs | hs
      · have hgo : s.loadGo i = false := by simp [loadGo, hs]
        have hload : (s.step cfg i).reqLoad = s.reqLoad := by simp [reqLoad, Bridge.step, regsNext, hgo]
        rw [hload]
      · rw [hs]
        rfl

theorem arGo_comp (h : s.arGo i = true) : s.regs.rReqStatus = .comp ∧ s.regs.rRespStatus = .incomp := by
  simpa [arGo, BridgeRegs.arvalid] using ((Bool.and_eq_true _ _).mp h).1

theorem Asked.step_go (h : s.Asked loads asked) (har : s.arGo i = true) :
    (s.step cfg i).Asked (loads ++ s.newLoads i) (asked ++ [s.reqLoad]) := by
  have hcomp := (arGo_comp har).1
  have hd : s.loadDone i = false := by simp [loadDone, loadGo, hcomp]
  have hstatus : (s.step cfg i).regs.rReqStatus = .incomp := by simp [Bridge.step, regsNext, hd, har]
  refine ⟨?_, .inr hstatus, ?_⟩
  · rw [h.loads_eq, hcomp, if_pos rfl, hstatus, newLoads, hd]
    simp
  · simp [Bridge.step, har, h.ars_eq, reqLoad]

/-- The loads that were answered with their data, and what has left of the response that is open. -/
inductive LoadPath (cfg : BridgeCfg) (s : Bridge) (loads : List Load) (answered : List (Load × Word)) (part : List Word) : Prop
  | idle (hasked : s.Asked loads (answered.map Prod.fst)) (hstatus : s.regs.rRespStatus = .incomp)
      (hrs : s.rs = answered.map Prod.snd) (hpart : part = [])
  | waiting {l : Load} (hasked : s.Asked loads (answered.map Prod.fst ++ [l])) (hstatus : s.regs.rRespStatus = .waitresp)
      (hrs : s.rs = answered.map Prod.snd) (hpart : part = []) (hl : s.asked = l.header1)
      (hheader : s.regs.rRespHeader0 = loadRespHeader cfg l.header0 l.header1 l.header2)
  | answering {l : Load} {rdata : Word} (hasked : s.Asked loads (answered.map Prod.fst ++ [l]))
      (hstatus : s.regs.rRespStatus = .respsend) (hrs : s.rs = answered.map Prod.snd ++ [rdata])
      (hheader : s.regs.rRespHeader0 = loadRespHeader cfg l.header0 l.header1 l.header2)
      (hdata : s.regs.rRespData0 = rdataMasked cfg l.header1 rdata)
      (hcount : s.regs.ackLoadCounter.toNat ≤ (loadRespLength l.header0 l.header1).toNat)
      (hpart : part = (l.packet cfg rdata).take
        ((loadRespLength l.header0 l.header1).toNat - s.regs.ackLoadCounter.toNat))

variable {answered : List (Load × Word)} {part : List Word}

theorem LoadPath.stall (hkeep : KeepsRequest cfg s i) (h : LoadPath cfg s loads answered part) (hgo : s.ackLoadGo i = false) :
    LoadPath cfg (s.step cfg i) (loads ++ s.newLoads i) answered part := by
  cases h with
  | idle hasked hstatus hrs hpart =>
      have hr : s.rGo i = false := by simp [rGo, BridgeRegs.rready, hstatus]
      have hrs' : (s.step cfg i).rs = s.rs := by simp [Bridge.step, hr]
      cases har : s.arGo i with
      | true =>
          refine .waiting (hasked.step_go har) ?_ (hrs'.trans hrs) hpart ?_ ?_
          · simp [Bridge.step, regsNext, har]
          · simp [Bridge.step, har, reqLoad]
          · simp [Bridge.step, regsNext, har, reqLoad]
      | false =>
          refine .idle (hasked.step_idle har) ?_ (hrs'.trans hrs) hpart
          simp [Bridge.step, regsNext, har, hr, hgo, hstatus]
  | @waiting l hasked hstatus hrs hpart hl hheader =>
      have har : s.arGo i = false := by simp [arGo, BridgeRegs.arvalid, hstatus]
      have hheader' : (s.step cfg i).regs.rRespHeader0 = s.regs.rRespHeader0 := by simp [Bridge.step, regsNext, har]
      have hl' : (s.step cfg i).asked = s.asked := by simp [Bridge.step, har]
      cases hr : s.rGo i with
      | true =>
          obtain ⟨rdata, hrdata⟩ := Option.isSome_iff_exists.mp ((Bool.and_eq_true _ _).mp hr).2
          have hcount : (s.step cfg i).regs.ackLoadCounter = loadRespLength l.header0 l.header1 := by
            simp only [Bridge.step, regsNext, hstatus, if_true, hheader]
            exact fieldLength_respHeader _ _ _ _
          have hrs' : (s.step cfg i).rs = answered.map Prod.snd ++ [rdata] := by simp [Bridge.step, hr, hrdata, hrs]
          refine .answering (hasked.step_idle har) ?_ hrs' (hheader'.trans hheader) ?_ ?_ ?_
          · simp [Bridge.step, regsNext, har, hr]
          · have hmask := rdataMasked_congr rdata (hkeep hr)
            rw [hl] at hmask
            simp [Bridge.step, regsNext, hr, hrdata, hmask]
          · rw [hcount]
          · rw [hcount, Nat.sub_self, List.take_zero, hpart]
      | false =>
          refine .waiting (hasked.step_idle har) ?_ ?_ hpart (hl'.trans hl) (hheader'.trans hheader)
          · simp [Bridge.step, regsNext, har, hr, hgo, hstatus]
          · simp [Bridge.step, hr, hrs]
  | @answering l rdata hasked hstatus hrs hheader hdata hcount hpart =>
      have har : s.arGo i = false := by simp [arGo, BridgeRegs.arvalid, hstatus]
      have hr : s.rGo i = false := by simp [rGo, BridgeRegs.rready, hstatus]
      have hcount' : (s.step cfg i).regs.ackLoadCounter = s.regs.ackLoadCounter := by
        simp [Bridge.step, regsNext, hgo, hstatus]
      have hrs' : (s.step cfg i).rs = answered.map Prod.snd ++ [rdata] := by simp [Bridge.step, hr, hrs]
      refine .answering (hasked.step_idle har) ?_ hrs' ?_ ?_ ?_ ?_
      · simp [Bridge.step, regsNext, har, hr, hgo, hstatus]
      · simp [Bridge.step, regsNext, har, hheader]
      · simp [Bridge.step, regsNext, hr, hdata]
      · rwa [hcount']
      · rwa [hcount']

theorem ackLoad_eq {l : Load} {rdata : Word} (hheader : s.regs.rRespHeader0 = loadRespHeader cfg l.header0 l.header1 l.header2)
    (hdata : s.regs.rRespData0 = rdataMasked cfg l.header1 rdata)
    (hcount : s.regs.ackLoadCounter.toNat ≤ (loadRespLength l.header0 l.header1).toNat) :
    (l.packet cfg rdata).take ((loadRespLength l.header0 l.header1).toNat - s.regs.ackLoadCounter.toNat + 1) =
      (l.packet cfg rdata).take ((loadRespLength l.header0 l.header1).toNat - s.regs.ackLoadCounter.toNat) ++
        [s.regs.ackLoad] := by
  have hlength : fieldLength s.regs.rRespHeader0 = loadRespLength l.header0 l.header1 := by
    rw [hheader]
    exact fieldLength_respHeader _ _ _ _
  rw [List.take_add_one]
  congr 1
  by_cases hat : s.regs.ackLoadCounter = loadRespLength l.header0 l.header1
  · have hack : s.regs.ackLoad = s.regs.rRespHeader0 := by simp [BridgeRegs.ackLoad, BridgeRegs.atHeader, hlength, hat]
    rw [hack, hheader, hat, Nat.sub_self]
    rfl
  · have hack : s.regs.ackLoad = s.regs.rRespData0 := by simp [BridgeRegs.ackLoad, BridgeRegs.atHeader, hlength, hat]
    have hne : s.regs.ackLoadCounter.toNat ≠ (loadRespLength l.header0 l.header1).toNat :=
      fun he => hat (BitVec.eq_of_toNat_eq he)
    obtain ⟨k, hk⟩ : ∃ k, (loadRespLength l.header0 l.header1).toNat - s.regs.ackLoadCounter.toNat = k + 1 :=
      ⟨(loadRespLength l.header0 l.header1).toNat - s.regs.ackLoadCounter.toNat - 1, by omega⟩
    rw [hack, hdata, hk, Load.packet, List.getElem?_cons_succ, List.getElem?_replicate, if_pos (by omega)]
    rfl

theorem LoadPath.go (h : LoadPath cfg s loads answered part) (hgo : s.ackLoadGo i = true) :
    (∃ l rdata, part ++ [s.regs.ackLoad] = l.packet cfg rdata ∧
      LoadPath cfg (s.step cfg i) (loads ++ s.newLoads i) (answered ++ [(l, rdata)]) []) ∨
    LoadPath cfg (s.step cfg i) (loads ++ s.newLoads i) answered (part ++ [s.regs.ackLoad]) := by
  have hval : s.regs.rRespStatus = .respsend := by
    have := ((Bool.and_eq_true _ _).mp ((Bool.and_eq_true _ _).mp hgo).1).2
    simpa [BridgeRegs.rRespVal] using this
  cases h with
  | idle hasked hstatus => simp [hstatus] at hval
  | waiting hasked hstatus => simp [hstatus] at hval
  | @answering l rdata hasked hstatus hrs hheader hdata hcount hpart =>
      have har : s.arGo i = false := by simp [arGo, BridgeRegs.arvalid, hstatus]
      have hr : s.rGo i = false := by simp [rGo, BridgeRegs.rready, hstatus]
      have hrs' : (s.step cfg i).rs = s.rs := by simp [Bridge.step, hr]
      have hnext := ackLoad_eq hheader hdata hcount
      rw [← hpart] at hnext
      by_cases hz : s.regs.ackLoadCounter = 0
      · left
        refine ⟨l, rdata, ?_, .idle ?_ ?_ ?_ rfl⟩
        · rw [← hnext, hz]
          exact List.take_of_length_le (by simp [Load.packet])
        · rw [List.map_append]
          exact hasked.step_idle har
        · simp [Bridge.step, regsNext, har, hr, hgo, hz, hstatus]
        · rw [hrs', hrs, List.map_append]
          rfl
      · right
        have hpos := Counter.toNat_pos hz
        have hcount' : (s.step cfg i).regs.ackLoadCounter.toNat = s.regs.ackLoadCounter.toNat - 1 := by
          have hstep : (s.step cfg i).regs.ackLoadCounter = s.regs.ackLoadCounter - 1 := by
            simp only [Bridge.step, regsNext, hstatus, hgo, hz, ne_eq, not_false_eq_true, decide_true, Bool.and_self, if_true,
              reduceCtorEq, if_false]
          rw [hstep, Counter.toNat_pred hpos]
        refine .answering (hasked.step_idle har) ?_ (hrs'.trans hrs) ?_ ?_ ?_ ?_
        · simp only [Bridge.step, regsNext, har, hr, hz, hstatus, decide_false, Bool.and_false, Bool.false_and,
            Bool.false_eq_true, if_false]
        · simp [Bridge.step, regsNext, har, hheader]
        · simp [Bridge.step, regsNext, hr, hdata]
        · rw [hcount']
          omega
        · rw [hcount', ← hnext]
          congr 1
          omega

theorem LoadPath.part_eq_nil (h : LoadPath cfg s loads answered part) (hgo : s.ackStoreGo i = true) : part = [] := by
  cases h with
  | idle hasked hstatus hrs hpart => exact hpart
  | waiting hasked hstatus hrs hpart => exact hpart
  | @answering l rdata hasked hstatus hrs hheader hdata hcount hpart =>
      have hval : s.regs.rRespVal = true := by simp [BridgeRegs.rRespVal, hstatus]
      have hsel : s.regs.ackMuxSel = .store := by
        have := ((Bool.and_eq_true _ _).mp ((Bool.and_eq_true _ _).mp hgo).1).1
        simpa using this
      have hat : s.regs.atHeader = true := by
        by_contra hat
        rw [BridgeRegs.ackMuxSel, hval] at hsel
        cases hw : s.regs.wRespVal <;> simp [hw, hat] at hsel
      have hcounter : s.regs.ackLoadCounter = loadRespLength l.header0 l.header1 := by
        rw [BridgeRegs.atHeader, decide_eq_true_eq, hheader] at hat
        exact hat.trans (fieldLength_respHeader _ _ _ _)
      rw [hpart, hcounter, Nat.sub_self, List.take_zero]

end Bridge

end OpenPiton.AxiLite
