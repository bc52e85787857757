import OpenPiton.AxiLite.Progress

namespace OpenPiton.AxiLite

open L15 (Word)

/-- A response that has left, to a load with the data that came for it or to a store. -/
inductive Resp
  | load (l : Load) (rdata : Word)
  | store (st : Store)

namespace Resp

def packet (cfg : BridgeCfg) : Resp → List Word
  | .load l rdata => l.packet cfg rdata
  | .store st => st.packet cfg

def load? : Resp → Option (Load × Word)
  | .load l rdata => some (l, rdata)
  | .store _ => none

def store? : Resp → Option Store
  | .load _ _ => none
  | .store st => some st

end Resp

namespace Bridge

variable {cfg : BridgeCfg} {s : Bridge} {i : BridgeIn} {reqs : List Request} {outs : List Resp} {part : List Word}
  {loads : List Load} {stores addrs datas : List Store}

/-- The responses `outs` have left, and `part` of the next. -/
structure Sent (cfg : BridgeCfg) (s : Bridge) (loads : List Load) (stores addrs datas : List Store) (outs : List Resp)
    (part : List Word) : Prop where
  loads : LoadPath cfg s loads (outs.filterMap Resp.load?) part
  stores : StorePath cfg s stores (outs.filterMap Resp.store?) addrs datas
  sent_eq : s.sent = outs.flatMap (Resp.packet cfg) ++ part

theorem sent_step (cfg : BridgeCfg) (s : Bridge) (i : BridgeIn) :
    s.ackLoadGo i = true ∧ s.ackStoreGo i = false ∧ (s.step cfg i).sent = s.sent ++ [s.regs.ackLoad] ∨
    s.ackLoadGo i = false ∧ s.ackStoreGo i = true ∧ (s.step cfg i).sent = s.sent ++ [s.regs.wRespHeader0] ∨
    s.ackLoadGo i = false ∧ s.ackStoreGo i = false ∧ (s.step cfg i).sent = s.sent := by
  cases hsel : s.regs.ackMuxSel with
  | load =>
      cases hgo : s.regs.rRespVal && i.rdy with
      | true => simp_all [ackLoadGo, ackStoreGo, step, BridgeRegs.splitterVal, BridgeRegs.splitterData]
      | false => simp_all [ackLoadGo, ackStoreGo, step, BridgeRegs.splitterVal, BridgeRegs.splitterData]
  | store =>
      cases hgo : s.regs.wRespVal && i.rdy with
      | true => simp_all [ackLoadGo, ackStoreGo, step, BridgeRegs.splitterVal, BridgeRegs.splitterData]
      | false => simp_all [ackLoadGo, ackStoreGo, step, BridgeRegs.splitterVal, BridgeRegs.splitterData]

theorem Sent.step (hkeep : KeepsRequest cfg s i) (h : Sent cfg s loads stores addrs datas outs part) :
    ∃ addrs' datas' outs' part',
      Sent cfg (s.step cfg i) (loads ++ s.newLoads i) (stores ++ s.newStores i) addrs' datas' outs' part' := by
  obtain ⟨addrs', datas', hst⟩ := h.stores.step i
  rcases sent_step cfg s i with ⟨hl, hs, hsent⟩ | ⟨hl, hs, hsent⟩ | ⟨hl, hs, hsent⟩
  · rw [hs, if_neg (by decide)] at hst
    rcases h.loads.go hl with ⟨l, rdata, hpart, hload⟩ | hload
    · refine ⟨addrs', datas', outs ++ [.load l rdata], [], ?_, ?_, ?_⟩
      · rwa [List.filterMap_append]
      · rwa [List.filterMap_append, List.filterMap_cons_none rfl, List.filterMap_nil, List.append_nil]
      · rw [hsent, h.sent_eq, List.append_assoc, hpart, List.flatMap_append, List.append_nil]
        simp [Resp.packet]
    · refine ⟨addrs', datas', outs, part ++ [s.regs.ackLoad], hload, hst, ?_⟩
      rw [hsent, h.sent_eq, List.append_assoc]
  · rw [hs, if_pos rfl] at hst
    obtain ⟨st, haddrs, -⟩ := h.stores.acked_both hs
    have hpart := h.loads.part_eq_nil hs
    have hheader := h.stores.header_eq st (by rw [haddrs]; exact List.mem_singleton_self st)
    refine ⟨addrs', datas', outs ++ [.store st], [], ?_, ?_, ?_⟩
    · rw [List.filterMap_append, List.filterMap_cons_none rfl, List.filterMap_nil, List.append_nil, ← hpart]
      exact h.loads.stall hkeep hl
    · rw [haddrs] at hst
      rwa [List.filterMap_append]
    · rw [hsent, h.sent_eq, hpart, List.flatMap_append, List.append_nil, List.append_nil, hheader]
      simp [Resp.packet, Store.packet]
  · rw [hs, if_neg (by decide)] at hst
    exact ⟨addrs', datas', outs, part, h.loads.stall hkeep hl, hst, hsent.trans h.sent_eq⟩

/-- What has crossed the channels belongs to the requests, each with its own address, data and response, in their order. -/
structure Responds (cfg : BridgeCfg) (reqs : List Request) (s : Bridge) (outs : List Resp) (part : List Word) : Prop where
  sent_eq : s.sent = outs.flatMap (Resp.packet cfg) ++ part
  loads : (outs.filterMap Resp.load?).map Prod.fst <+: reqs.filterMap Request.load?
  rs : (outs.filterMap Resp.load?).map Prod.snd <+: s.rs
  part : part ≠ [] → ∃ l rdata, part <+: l.packet cfg rdata ∧
    (outs.filterMap Resp.load?).map Prod.fst ++ [l] <+: reqs.filterMap Request.load? ∧
    (outs.filterMap Resp.load?).map Prod.snd ++ [rdata] = s.rs
  ars : s.ars <+: (reqs.filterMap Request.load?).map fun l => axiAddr l.header1
  rs_le : s.rs.length ≤ s.ars.length
  stores : outs.filterMap Resp.store? <+: reqs.filterMap Request.store?
  aws : s.aws <+: (reqs.filterMap Request.store?).map fun st => axiAddr st.header1
  ws : s.ws <+: (reqs.filterMap Request.store?).map (Store.write cfg)
  acked_le : (outs.filterMap Resp.store?).length ≤ s.bs
  bs_le : s.bs ≤ s.aws.length ∧ s.bs ≤ s.ws.length

/-- Every request was answered, once. -/
structure Complete (cfg : BridgeCfg) (reqs : List Request) (s : Bridge) (outs : List Resp) : Prop where
  sent_eq : s.sent = outs.flatMap (Resp.packet cfg)
  loads : (outs.filterMap Resp.load?).map Prod.fst = reqs.filterMap Request.load?
  rs : (outs.filterMap Resp.load?).map Prod.snd = s.rs
  ars : s.ars = (reqs.filterMap Request.load?).map fun l => axiAddr l.header1
  stores : outs.filterMap Resp.store? = reqs.filterMap Request.store?
  aws : s.aws = (reqs.filterMap Request.store?).map fun st => axiAddr st.header1
  ws : s.ws = (reqs.filterMap Request.store?).map (Store.write cfg)
  bs : s.bs = (reqs.filterMap Request.store?).length

theorem Parsed.read (h : s.Parsed reqs loads stores) :
    loads <+: reqs.filterMap Request.load? ∧ stores <+: reqs.filterMap Request.store? := by
  have hpast : ∀ {past rest : List Request}, reqs = past ++ rest → loads = past.filterMap Request.load? →
      stores = past.filterMap Request.store? →
      loads <+: reqs.filterMap Request.load? ∧ stores <+: reqs.filterMap Request.store? := by
    rintro past rest rfl rfl rfl
    rw [List.filterMap_append, List.filterMap_append]
    exact ⟨List.prefix_append _ _, List.prefix_append _ _⟩
  cases h with
  | between hreqs hloads hstores => exact hpast hreqs hloads hstores
  | load1 hreqs hloads hstores => exact hpast hreqs hloads hstores
  | load2 hreqs hloads hstores => exact hpast hreqs hloads hstores
  | store1 hreqs hloads hstores => exact hpast hreqs hloads hstores
  | store2 hreqs hloads hstores => exact hpast hreqs hloads hstores
  | store3 hreqs hloads hstores => exact hpast hreqs hloads hstores

theorem Parsed.all (h : s.Parsed reqs loads stores) (hnil : s.pending = []) :
    loads = reqs.filterMap Request.load? ∧ stores = reqs.filterMap Request.store? := by
  cases h with
  | @between past rest hreqs hloads hstores hstate hp =>
      have hrest : rest = [] := by
        rw [hnil] at hp
        cases rest with
        | nil => rfl
        | cons r rest => cases r <;> cases hp
      rw [hreqs, hrest, List.append_nil]
      exact ⟨hloads, hstores⟩
  | load1 hreqs hloads hstores hstate hstatus hbuf hp => cases hnil.symm.trans hp
  | load2 hreqs hloads hstores hstate hstatus hbuf hp => cases hnil.symm.trans hp
  | store1 hreqs hloads hstores hstate hstatus hbuf hp => cases hnil.symm.trans hp
  | store2 hreqs hloads hstores hstate hstatus hbuf hp => cases hnil.symm.trans hp
  | store3 hreqs hloads hstores hstate hstatus hbuf hp => cases hnil.symm.trans hp

theorem LoadPath.asked {answered : List (Load × Word)} (h : LoadPath cfg s loads answered part) : ∃ ls rds,
    s.Asked loads (answered.map Prod.fst ++ ls) ∧ s.rs = answered.map Prod.snd ++ rds ∧ rds.length ≤ ls.length ∧
    (s.regs.rRespStatus = .incomp → ls = [] ∧ rds = []) ∧
    (part ≠ [] → ∃ l rdata, ls = [l] ∧ rds = [rdata] ∧ part <+: l.packet cfg rdata) := by
  cases h with
  | idle hasked hstatus hrs hpart =>
      exact ⟨[], [], by rwa [List.append_nil], by rw [hrs, List.append_nil], Nat.le_refl _, fun _ => ⟨rfl, rfl⟩, (absurd hpart ·)⟩
  | @waiting l hasked hstatus hrs hpart =>
      refine ⟨[l], [], hasked, by rw [hrs, List.append_nil], Nat.zero_le _, fun hs => ?_, (absurd hpart ·)⟩
      cases hstatus.symm.trans hs
  | @answering l rdata hasked hstatus hrs hheader hdata hcount hpart =>
      refine ⟨[l], [rdata], hasked, hrs, Nat.le_refl _, fun hs => ?_, fun _ => ⟨l, rdata, rfl, rfl, ?_⟩⟩
      · cases hstatus.symm.trans hs
      · rw [hpart]
        exact List.take_prefix _ _

theorem Channel.respsend_le {acked sent : List Store} {q p : BufStatus} (h : Channel s stores acked sent q p) :
    (if p = .respsend then 1 else 0) ≤ sent.length := by
  rcases h.sent_iff with ⟨rfl, -⟩ | ⟨-, st, rfl⟩
  · exact Nat.zero_le _
  · split
    · exact Nat.le_refl _
    · exact Nat.zero_le _

theorem Sent.responds (hp : s.Parsed reqs loads stores) (h : Sent cfg s loads stores addrs datas outs part) :
    Responds cfg reqs s outs part := by
  obtain ⟨hloads, hstores⟩ := hp.read
  obtain ⟨ls, rds, hasked, hrs, hle, -, hpart⟩ := h.loads.asked
  have hasked' : (outs.filterMap Resp.load?).map Prod.fst ++ ls <+: loads := by
    rw [hasked.loads_eq]
    exact List.prefix_append _ _
  have haddr : outs.filterMap Resp.store? ++ addrs <+: stores := by
    rw [h.stores.addr.stores_eq]
    exact List.prefix_append _ _
  have hdata : outs.filterMap Resp.store? ++ datas <+: stores := by
    rw [h.stores.data.stores_eq]
    exact List.prefix_append _ _
  refine ⟨h.sent_eq, ((List.prefix_append _ _).trans hasked').trans hloads, ?_, ?_, ?_, ?_, ?_, ?_, ?_, ?_, ?_⟩
  · rw [hrs]
    exact List.prefix_append _ _
  · intro hne
    obtain ⟨l, rdata, rfl, rfl, hpre⟩ := hpart hne
    exact ⟨l, rdata, hpre, hasked'.trans hloads, hrs.symm⟩
  · rw [hasked.ars_eq]
    exact (hasked'.trans hloads).map _
  · rw [hasked.ars_eq, hrs]
    simp only [List.length_append, List.length_map]
    omega
  · exact ((List.prefix_append _ _).trans haddr).trans hstores
  · rw [h.stores.aws_eq]
    exact (haddr.trans hstores).map _
  · rw [h.stores.ws_eq]
    exact (hdata.trans hstores).map _
  · rw [h.stores.bs_eq]
    exact Nat.le_add_right _ _
  · have hiff := h.stores.respsend_iff
    have haddrs := h.stores.addr.respsend_le
    have hdatas := h.stores.data.respsend_le
    rw [h.stores.bs_eq, h.stores.aws_eq, h.stores.ws_eq]
    simp only [hiff, List.length_map, List.length_append] at haddrs ⊢
    omega

theorem Sent.part_rest (h : Sent cfg s loads stores addrs datas outs part) (hrest : s.Rest) : part = [] := by
  obtain ⟨ls, rds, -, -, -, hidle, hpart⟩ := h.loads.asked
  by_contra hne
  obtain ⟨l, rdata, hl, -⟩ := hpart hne
  rw [(hidle hrest.rRespStatus).1] at hl
  cases hl

theorem Sent.complete (hp : s.Parsed reqs loads stores) (hrest : s.Rest) (h : Sent cfg s loads stores addrs datas outs part) :
    Complete cfg reqs s outs := by
  obtain ⟨hloads, hstores⟩ := hp.all hrest.pending
  obtain ⟨ls, rds, hasked, hrs, -, hidle, -⟩ := h.loads.asked
  obtain ⟨rfl, rfl⟩ := hidle hrest.rRespStatus
  have hnil : part = [] := h.part_rest hrest
  have hread : (outs.filterMap Resp.load?).map Prod.fst = loads := by
    rw [hasked.loads_eq, hrest.rReqStatus, if_neg (by decide), List.append_nil, List.append_nil]
  obtain ⟨hqa, hqd⟩ := wReqStatus_incomp_iff.mp hrest.wReqStatus
  have haddrs : addrs = [] := (hrest.wAddrRespStatus ▸ h.stores.addr).sent_eq_nil
  have hdatas : datas = [] := (hrest.wDataRespStatus ▸ h.stores.data).sent_eq_nil
  have hacked : outs.filterMap Resp.store? = stores := by
    rw [h.stores.addr.stores_eq, hqa, if_neg (by decide), haddrs, List.append_nil, List.append_nil]
  refine ⟨?_, hread.trans hloads, ?_, ?_, hacked.trans hstores, ?_, ?_, ?_⟩
  · rw [h.sent_eq, hnil, List.append_nil]
  · rw [hrs, List.append_nil]
  · rw [hasked.ars_eq, List.append_nil, hread, hloads]
  · rw [h.stores.aws_eq, haddrs, List.append_nil, hacked, hstores]
  · rw [h.stores.ws_eq, hdatas, List.append_nil, hacked, hstores]
  · rw [h.stores.bs_eq, hrest.wAddrRespStatus, if_neg (by decide), hacked, hstores]
    rfl

/-- The words that were read, with the responses that have left. -/
def Sound (cfg : BridgeCfg) (reqs : List Request) (s : Bridge) : Prop :=
  ∃ loads stores addrs datas outs part, s.Parsed reqs loads stores ∧ Sent cfg s loads stores addrs datas outs part

theorem sound_start (cfg : BridgeCfg) (reqs : List Request) : Sound cfg reqs { pending := reqs.flatMap Request.words } := by
  refine ⟨[], [], [], [], [], [], .between (List.nil_append reqs).symm rfl rfl rfl rfl, ?_, ?_, rfl⟩
  · exact .idle ⟨rfl, .inr rfl, rfl⟩ rfl rfl rfl
  · exact ⟨⟨rfl, .inr rfl, .inl ⟨rfl, rfl⟩⟩, ⟨rfl, .inr rfl, .inl ⟨rfl, rfl⟩⟩, rfl, rfl, by simp, by simp, rfl⟩

theorem Sound.step (hwf : ∀ r ∈ reqs, r.WellFormed) (hkeep : KeepsRequest cfg s i) (h : Sound cfg reqs s) :
    Sound cfg reqs (s.step cfg i) := by
  obtain ⟨loads, stores, addrs, datas, outs, part, hp, hs⟩ := h
  obtain ⟨addrs', datas', outs', part', hs'⟩ := hs.step hkeep
  exact ⟨_, _, addrs', datas', outs', part', hp.step hwf, hs'⟩

theorem LoadPath.status {answered : List (Load × Word)} (h : LoadPath cfg s loads answered part) :
    (s.regs.rReqStatus = .comp ∨ s.regs.rReqStatus = .incomp) ∧
    (s.regs.rRespStatus = .incomp ∨ s.regs.rRespStatus = .waitresp ∨ s.regs.rRespStatus = .respsend) := by
  cases h with
  | idle hasked hstatus => exact ⟨hasked.status, .inl hstatus⟩
  | waiting hasked hstatus => exact ⟨hasked.status, .inr (.inl hstatus)⟩
  | answering hasked hstatus => exact ⟨hasked.status, .inr (.inr hstatus)⟩

theorem Sound.live (h : Sound cfg reqs s) : s.Live cfg := by
  obtain ⟨loads, stores, addrs, datas, outs, part, -, hs⟩ := h
  obtain ⟨hreq, hresp⟩ := hs.loads.status
  exact ⟨hreq, hresp, _, _, _, _, hs.stores⟩

instance (cfg : BridgeCfg) (s : Bridge) (i : BridgeIn) : Decidable (KeepsRequest cfg s i) := by
  unfold KeepsRequest
  infer_instance

end Bridge

open Bridge

/-- While the size and the place of each load outlast its wait for data, every response is that of its own request, and every
request comes to be answered where all ports are ready again and again. -/
theorem requests_answered {cfg : BridgeCfg} {reqs : List Request} {s : Bridge} (hwf : ∀ r ∈ reqs, r.WellFormed)
    (h : Machine.Reaches (· = { pending := reqs.flatMap Request.words }) (Bridge.step cfg) (KeepsRequest cfg) s) :
    (∃ outs part, Responds cfg reqs s outs part ∧ (s.Rest → part = [] ∧ Complete cfg reqs s outs)) ∧
      ∀ is : Nat → BridgeIn, (∀ p n, ∃ m, n ≤ m ∧ (is m).ready p) → ∃ n, (Machine.trace (Bridge.step cfg) s is n).Rest := by
  have hsound : Sound cfg reqs s :=
    h.invariant (fun _ hs => hs ▸ sound_start cfg reqs) fun _ _ hs hkeep => hs.step hwf hkeep
  refine ⟨?_, fun is hfair => comes_to_rest hsound.live hfair⟩
  obtain ⟨loads, stores, addrs, datas, outs, part, hp, hs⟩ := hsound
  exact ⟨outs, part, hs.responds hp, fun hrest => ⟨hs.part_rest hrest, hs.complete hp hrest⟩⟩

/-- A load of a byte. -/
def byteLoad : Load := ⟨0x838140, 0x80100, 0x40000000000⟩

/-- A load of eight bytes at the same place, for another source. -/
def wordLoad : Load := ⟨0x838180, 0x80400, 0x80000000000⟩

def wordStore : Store := ⟨0xc3c1c0, 0x100400, 0x40000000000, 0x1234⟩

/-- Every port is ready; data come where some are given. -/
def allReady (rdata : Option Word) : BridgeIn := ⟨true, true, true, true, true, rdata, true⟩

/-- A load of a byte and a store. -/
def loadAndStore : List Request := [.load byteLoad, .store wordStore]

/-- A load of a byte with another load behind it. -/
def twoLoads : List Request := [.load byteLoad, .load wordLoad]

/-- A slave that answers with bytes; the data are aligned. -/
def byteSlave : BridgeCfg := ⟨0, false, true, 0⟩

/-- Data that come in the sixth cycle or later. -/
def lateData : List BridgeIn := List.replicate 6 (allReady none) ++ List.replicate 3 (allReady (some 0x1122334455667788))

theorem loadAndStore_wellFormed : ∀ r ∈ loadAndStore, r.WellFormed := by
  intro r hr
  rcases List.mem_pair.mp hr with rfl | rfl
  · exact ⟨by decide, by decide⟩
  · exact ⟨by decide, by decide⟩

theorem twoLoads_wellFormed : ∀ r ∈ twoLoads, r.WellFormed := by
  intro r hr
  rcases List.mem_pair.mp hr with rfl | rfl
  · exact ⟨by decide, by decide⟩
  · exact ⟨by decide, by decide⟩

theorem requests_answered_late :
    let s := Machine.run (Bridge.step byteSlave) { pending := loadAndStore.flatMap Request.words } (lateData ++ lateData)
    (s.sent = [0x40000468140, 0x8888888888888888, 0x4000006c1c0] ∧ s.Rest) ∧
      ∃ outs part, Responds byteSlave loadAndStore s outs part ∧
        (s.Rest → part = [] ∧ Complete byteSlave loadAndStore s outs) := by
  have hstart : Machine.Reaches (· = { pending := loadAndStore.flatMap Request.words }) (Bridge.step byteSlave)
    (KeepsRequest byteSlave) { pending := loadAndStore.flatMap Request.words } := .start rfl
  have hrun : Machine.Reaches (· = { pending := loadAndStore.flatMap Request.words }) (Bridge.step byteSlave)
      (KeepsRequest byteSlave)
      (Machine.run (Bridge.step byteSlave) { pending := loadAndStore.flatMap Request.words } (lateData ++ lateData)) :=
    hstart.run (by decide +kernel)
  exact ⟨⟨by decide +kernel, by constructor <;> decide +kernel⟩, (requests_answered loadAndStore_wellFormed hrun).1⟩

/-- The next load is read while the first waits for its data, which are then those of a load of eight bytes. -/
theorem next_size_used : ¬ ∀ (cfg : BridgeCfg) (reqs : List Request) (s : Bridge), (∀ r ∈ reqs, r.WellFormed) →
    Machine.Reaches (· = { pending := reqs.flatMap Request.words }) (Bridge.step cfg) (fun _ _ => True) s →
    ∃ outs part, Responds cfg reqs s outs part := by
  intro h
  have hstart : Machine.Reaches (· = { pending := twoLoads.flatMap Request.words }) (Bridge.step byteSlave)
    (fun _ _ => True) { pending := twoLoads.flatMap Request.words } := .start rfl
  obtain ⟨outs, part, hr⟩ := h byteSlave twoLoads _ twoLoads_wellFormed (hstart.run (Machine.meets_true _ lateData))
  have hsent : [0x40000468140, 0x1122334455667788] = outs.flatMap (Resp.packet byteSlave) ++ part := hr.sent_eq
  cases outs with
  | nil =>
      obtain rfl : [0x40000468140, 0x1122334455667788] = part := hsent
      obtain ⟨l, rdata, hpre, hl, hr⟩ := hr.part (List.cons_ne_nil _ _)
      obtain rfl : l = byteLoad := (List.cons_prefix_cons.mp hl).1
      obtain rfl : rdata = 0x1122334455667788 := (List.cons.inj hr).1
      exact absurd hpre (by decide)
  | cons o outs =>
      cases o with
      | store st => cases List.prefix_nil.mp hr.stores
      | load l rdata =>
          obtain rfl : l = byteLoad := (List.cons_prefix_cons.mp hr.loads).1
          obtain rfl : rdata = 0x1122334455667788 := (List.cons_prefix_cons.mp hr.rs).1
          rw [List.flatMap_cons, List.append_assoc] at hsent
          exact absurd (List.cons.inj (List.cons.inj hsent).2).1 (by decide)

end OpenPiton.AxiLite
