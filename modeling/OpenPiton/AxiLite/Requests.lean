import OpenPiton.AxiLite.Bridge
import OpenPiton.Lib.Counter

namespace OpenPiton.AxiLite

open L15 (Word)
open Noc1 (fieldLength fieldType)

/-- The three header words of a load. -/
structure Load where
  header0 : Word
  header1 : Word
  header2 : Word

/-- The three header words of a store, and its data word. -/
structure Store where
  header0 : Word
  header1 : Word
  header2 : Word
  data : Word

inductive Request
  | load (l : Load)
  | store (st : Store)

namespace Request

def words : Request → List Word
  | .load l => [l.header0, l.header1, l.header2]
  | .store st => [st.header0, st.header1, st.header2, st.data]

def load? : Request → Option Load
  | .load l => some l
  | .store _ => none

def store? : Request → Option Store
  | .load _ => none
  | .store st => some st

/-- The type and the length of the packet are those of a load of three words, or of a store with one data word. -/
def WellFormed : Request → Prop
  | .load l => (fieldType l.header0 = 31 ∨ fieldType l.header0 = 14 ∨ fieldType l.header0 = 19) ∧ fieldLength l.header0 = 2
  | .store st =>
      (fieldType st.header0 = 2 ∨ fieldType st.header0 = 15 ∨ fieldType st.header0 = 20) ∧ fieldLength st.header0 = 3

end Request

namespace Bridge

variable (s : Bridge) (i : BridgeIn)

/-- The load whose last word comes in this cycle. -/
def newLoads : List Load := if s.loadDone i then [⟨s.regs.rReqHeader0, s.regs.rReqHeader1, s.data⟩] else []

/-- The store whose data word comes in this cycle. -/
def newStores : List Store :=
  if s.storeDone i then [⟨s.regs.wReqHeader0, s.regs.wReqHeader1, s.regs.wReqHeader2, s.data⟩] else []

/-- The words of `reqs` that are still to come, after those of `past`, and those of the request that is being read. -/
inductive Parsed (reqs : List Request) (s : Bridge) (loads : List Load) (stores : List Store) : Prop
  | between {past rest : List Request} (hreqs : reqs = past ++ rest) (hloads : loads = past.filterMap Request.load?)
      (hstores : stores = past.filterMap Request.store?) (hstate : s.regs.msgStateNext = .header0)
      (hpending : s.pending = rest.flatMap Request.words)
  | load1 {past rest : List Request} {l : Load} (hreqs : reqs = past ++ .load l :: rest)
      (hloads : loads = past.filterMap Request.load?) (hstores : stores = past.filterMap Request.store?)
      (hstate : s.regs.msgState = .header0 ∧ s.regs.msgType = .load ∧ s.regs.msgCounter = 2)
      (hstatus : s.regs.rReqStatus = .incomp) (hbuf : s.regs.rReqHeader0 = l.header0)
      (hpending : s.pending = l.header1 :: l.header2 :: rest.flatMap Request.words)
  | load2 {past rest : List Request} {l : Load} (hreqs : reqs = past ++ .load l :: rest)
      (hloads : loads = past.filterMap Request.load?) (hstores : stores = past.filterMap Request.store?)
      (hstate : s.regs.msgState = .header1 ∧ s.regs.msgType = .load ∧ s.regs.msgCounter = 1)
      (hstatus : s.regs.rReqStatus = .incomp) (hbuf : s.regs.rReqHeader0 = l.header0 ∧ s.regs.rReqHeader1 = l.header1)
      (hpending : s.pending = l.header2 :: rest.flatMap Request.words)
  | store1 {past rest : List Request} {st : Store} (hreqs : reqs = past ++ .store st :: rest)
      (hloads : loads = past.filterMap Request.load?) (hstores : stores = past.filterMap Request.store?)
      (hstate : s.regs.msgState = .header0 ∧ s.regs.msgType = .store ∧ s.regs.msgCounter = 3)
      (hstatus : s.regs.wReqStatus = .incomp) (hbuf : s.regs.wReqHeader0 = st.header0)
      (hpending : s.pending = st.header1 :: st.header2 :: st.data :: rest.flatMap Request.words)
  | store2 {past rest : List Request} {st : Store} (hreqs : reqs = past ++ .store st :: rest)
      (hloads : loads = past.filterMap Request.load?) (hstores : stores = past.filterMap Request.store?)
      (hstate : s.regs.msgState = .header1 ∧ s.regs.msgType = .store ∧ s.regs.msgCounter = 2)
      (hstatus : s.regs.wReqStatus = .incomp) (hbuf : s.regs.wReqHeader0 = st.header0 ∧ s.regs.wReqHeader1 = st.header1)
      (hpending : s.pending = st.header2 :: st.data :: rest.flatMap Request.words)
  | store3 {past rest : List Request} {st : Store} (hreqs : reqs = past ++ .store st :: rest)
      (hloads : loads = past.filterMap Request.load?) (hstores : stores = past.filterMap Request.store?)
      (hstate : s.regs.msgState = .header2 ∧ s.regs.msgType = .store ∧ s.regs.msgCounter = 1)
      (hstatus : s.regs.wReqStatus = .incomp)
      (hbuf : s.regs.wReqHeader0 = st.header0 ∧ s.regs.wReqHeader1 = st.header1 ∧ s.regs.wReqHeader2 = st.header2)
      (hpending : s.pending = st.data :: rest.flatMap Request.words)

variable {s i} {cfg : BridgeCfg} {reqs : List Request} {loads : List Load} {stores : List Store}

theorem val_cons {w : Word} {l : List Word} (h : s.pending = w :: l) : s.val i = i.val ∧ s.data = w := by
  simp [val, data, h]

theorem stalled (h : s.go i = false) :
    s.loadGo i = false ∧ s.storeGo i = false ∧ s.loadDone i = false ∧ s.storeDone i = false := by
  simp [loadDone, storeDone, loadGo, storeGo, h]

theorem go_load (hval : s.val i = true) (htype : s.msgTypeNext i = .load) (hstatus : s.regs.rReqStatus = .incomp) :
    s.go i = true ∧ s.loadGo i = true ∧ s.storeGo i = false := by
  simp [go, loadGo, storeGo, rdyOut, hval, htype, hstatus]

theorem go_store (hval : s.val i = true) (htype : s.msgTypeNext i = .store) (hstatus : s.regs.wReqStatus = .incomp) :
    s.go i = true ∧ s.storeGo i = true ∧ s.loadGo i = false := by
  simp [go, loadGo, storeGo, rdyOut, hval, htype, hstatus]

theorem rReqStatus_incomp (h : s.regs.rReqStatus = .incomp) (hdone : s.loadDone i = false) :
    (s.step cfg i).regs.rReqStatus = .incomp := by
  simp only [step, regsNext, hdone, h]
  split <;> simp_all

theorem wReqStatus_incomp_iff :
    s.regs.wReqStatus = .incomp ↔ s.regs.wAddrReqStatus = .incomp ∧ s.regs.wDataReqStatus = .incomp := by
  rw [BridgeRegs.wReqStatus]
  split
  · simp_all
  · exact ⟨fun he => (by cases he), fun he => absurd he ‹_›⟩

theorem wReqStatus_incomp (h : s.regs.wReqStatus = .incomp) (hdone : s.storeDone i = false) :
    (s.step cfg i).regs.wReqStatus = .incomp := by
  have hboth := wReqStatus_incomp_iff.mp h
  simp [BridgeRegs.wReqStatus, step, regsNext, hdone, hboth.1, hboth.2]

theorem Parsed.stall (h : s.Parsed reqs loads stores) (hgo : s.go i = false) : (s.step cfg i).Parsed reqs loads stores := by
  obtain ⟨hl, hst, hld, hsd⟩ := stalled hgo
  have hr : s.regs.rReqStatus = .incomp → (s.step cfg i).regs.rReqStatus = .incomp := fun h => rReqStatus_incomp h hld
  have hw : s.regs.wReqStatus = .incomp → (s.step cfg i).regs.wReqStatus = .incomp := fun h => wReqStatus_incomp h hsd
  have hstate : (s.step cfg i).regs.msgState = s.regs.msgState := by simp [step, regsNext, hgo]
  have htype : (s.step cfg i).regs.msgType = s.regs.msgType := by simp [step, regsNext, hgo]
  have hcounter : (s.step cfg i).regs.msgCounter = s.regs.msgCounter := by simp [step, regsNext, hgo]
  have hpend : (s.step cfg i).pending = s.pending := by simp [step, hgo]
  have hr0 : (s.step cfg i).regs.rReqHeader0 = s.regs.rReqHeader0 := by simp [step, regsNext, hl]
  have hr1 : (s.step cfg i).regs.rReqHeader1 = s.regs.rReqHeader1 := by simp [step, regsNext, hl]
  have hw0 : (s.step cfg i).regs.wReqHeader0 = s.regs.wReqHeader0 := by simp [step, regsNext, hst]
  have hw1 : (s.step cfg i).regs.wReqHeader1 = s.regs.wReqHeader1 := by simp [step, regsNext, hst]
  have hw2 : (s.step cfg i).regs.wReqHeader2 = s.regs.wReqHeader2 := by simp [step, regsNext, hst]
  have hnext : (s.step cfg i).regs.msgStateNext = s.regs.msgStateNext := by
    rw [BridgeRegs.msgStateNext, BridgeRegs.msgStateNext, hstate, hcounter]
  cases h with
  | between hreqs hloads hstores hs hp => exact .between hreqs hloads hstores (hnext.trans hs) (hpend.trans hp)
  | load1 hreqs hloads hstores hs hstatus hbuf hp =>
      exact .load1 hreqs hloads hstores (by rwa [hstate, htype, hcounter]) (hr hstatus) (hr0.trans hbuf) (hpend.trans hp)
  | load2 hreqs hloads hstores hs hstatus hbuf hp =>
      exact .load2 hreqs hloads hstores (by rwa [hstate, htype, hcounter]) (hr hstatus) (by rwa [hr0, hr1]) (hpend.trans hp)
  | store1 hreqs hloads hstores hs hstatus hbuf hp =>
      exact .store1 hreqs hloads hstores (by rwa [hstate, htype, hcounter]) (hw hstatus) (hw0.trans hbuf) (hpend.trans hp)
  | store2 hreqs hloads hstores hs hstatus hbuf hp =>
      exact .store2 hreqs hloads hstores (by rwa [hstate, htype, hcounter]) (hw hstatus) (by rwa [hw0, hw1]) (hpend.trans hp)
  | store3 hreqs hloads hstores hs hstatus hbuf hp =>
      exact .store3 hreqs hloads hstores (by rwa [hstate, htype, hcounter]) (hw hstatus) (by rwa [hw0, hw1, hw2])
        (hpend.trans hp)

theorem load_word (cfg : BridgeCfg) {w : Word} {l : List Word} (hp : s.pending = w :: l) (hval : s.val i = true)
    (htype : s.msgTypeNext i = .load) (hstatus : s.regs.rReqStatus = .incomp) :
    (s.step cfg i).regs.msgState = s.regs.msgStateNext ∧ (s.step cfg i).regs.msgType = .load ∧
    (s.step cfg i).regs.msgCounter = (if s.regs.msgStateNext = .header0 then fieldLength w else s.regs.msgCounter - 1) ∧
    (s.step cfg i).regs.rReqHeader0 = (if s.regs.msgStateNext = .header0 then w else s.regs.rReqHeader0) ∧
    (s.step cfg i).regs.rReqHeader1 = (if s.regs.msgStateNext = .header1 then w else s.regs.rReqHeader1) ∧
    (s.step cfg i).pending = l ∧ s.newStores i = [] := by
  obtain ⟨hgo, hload, hstore⟩ := go_load hval htype hstatus
  have hdata : s.data = w := (val_cons (i := i) hp).2
  simp [step, regsNext, hgo, hload, msgCounterNext, hdata, htype, hp, newStores, storeDone, hstore]

theorem store_word (cfg : BridgeCfg) {w : Word} {l : List Word} (hp : s.pending = w :: l) (hval : s.val i = true)
    (htype : s.msgTypeNext i = .store) (hstatus : s.regs.wReqStatus = .incomp) :
    (s.step cfg i).regs.msgState = s.regs.msgStateNext ∧ (s.step cfg i).regs.msgType = .store ∧
    (s.step cfg i).regs.msgCounter = (if s.regs.msgStateNext = .header0 then fieldLength w else s.regs.msgCounter - 1) ∧
    (s.step cfg i).regs.wReqHeader0 = (if s.regs.msgStateNext = .header0 then w else s.regs.wReqHeader0) ∧
    (s.step cfg i).regs.wReqHeader1 = (if s.regs.msgStateNext = .header1 then w else s.regs.wReqHeader1) ∧
    (s.step cfg i).regs.wReqHeader2 = (if s.regs.msgStateNext = .header2 then w else s.regs.wReqHeader2) ∧
    (s.step cfg i).pending = l ∧ s.newLoads i = [] := by
  obtain ⟨hgo, hstore, hload⟩ := go_store hval htype hstatus
  have hdata : s.data = w := (val_cons (i := i) hp).2
  simp [step, regsNext, hgo, hstore, msgCounterNext, hdata, htype, hp, newLoads, loadDone, hload]

theorem first_word {past rest : List Request} (hwf : ∀ r ∈ reqs, r.WellFormed) (hreqs : reqs = past ++ rest)
    (hloads : loads = past.filterMap Request.load?) (hstores : stores = past.filterMap Request.store?)
    (hs : s.regs.msgStateNext = .header0) (hp : s.pending = rest.flatMap Request.words) (hgo : s.go i = true) :
    (s.step cfg i).Parsed reqs (loads ++ s.newLoads i) (stores ++ s.newStores i) := by
  obtain ⟨hval, hrdy⟩ := (Bool.and_eq_true _ _).mp hgo
  have hld : s.loadDone i = false := by simp [loadDone, hs]
  have hsd : s.storeDone i = false := by simp [storeDone, hs]
  have hmux : s.msgTypeNext i = s.msgTypeMuxOut i := by simp [msgTypeNext, hs]
  rw [newLoads, newStores, hld, hsd, if_neg (by decide), if_neg (by decide), List.append_nil, List.append_nil]
  cases rest with
  | nil => simp [val, hp] at hval
  | cons r rest =>
      have hr := hwf r (by rw [hreqs]; simp)
      rw [List.flatMap_cons] at hp
      cases r with
      | load l =>
          have hdata : s.data = l.header0 := (val_cons (i := i) hp).2
          have htype : s.msgTypeNext i = .load := by
            rw [hmux, msgTypeMuxOut, hval, hdata, if_neg (by decide), if_pos hr.1]
          have hstatus : s.regs.rReqStatus = .incomp := by simpa [rdyOut, htype] using hrdy
          obtain ⟨h1, h2, h3, h4, h5, h6, h7⟩ := load_word cfg hp hval htype hstatus
          refine .load1 hreqs hloads hstores ⟨h1.trans hs, h2, ?_⟩ (rReqStatus_incomp hstatus hld) ?_ h6
          · rw [h3, if_pos hs, hr.2]
          · rw [h4, if_pos hs]
      | store st =>
          have hdata : s.data = st.header0 := (val_cons (i := i) hp).2
          have htype : s.msgTypeNext i = .store := by
            have hne : ¬ (fieldType st.header0 = 31 ∨ fieldType st.header0 = 14 ∨ fieldType st.header0 = 19) := by
              rcases hr.1 with h | h | h <;> rw [h] <;> decide
            rw [hmux, msgTypeMuxOut, hval, hdata, if_neg (by decide), if_neg hne, if_pos hr.1]
          have hstatus : s.regs.wReqStatus = .incomp := by simpa [rdyOut, htype] using hrdy
          obtain ⟨h1, h2, h3, h4, h5, h6, h7, h8⟩ := store_word cfg hp hval htype hstatus
          refine .store1 hreqs hloads hstores ⟨h1.trans hs, h2, ?_⟩ (wReqStatus_incomp hstatus hsd) ?_ h7
          · rw [h3, if_pos hs, hr.2]
          · rw [h4, if_pos hs]

theorem Parsed.step (hwf : ∀ r ∈ reqs, r.WellFormed) (h : s.Parsed reqs loads stores) :
    (s.step cfg i).Parsed reqs (loads ++ s.newLoads i) (stores ++ s.newStores i) := by
  cases hgo : s.go i with
  | false =>
      obtain ⟨-, -, hld, hsd⟩ := stalled hgo
      simp only [newLoads, newStores, hld, hsd, Bool.false_eq_true, if_false, List.append_nil]
      exact h.stall hgo
  | true =>
      have hval : s.val i = true := ((Bool.and_eq_true _ _).mp hgo).1
      cases h with
      | between hreqs hloads hstores hs hp => exact first_word hwf hreqs hloads hstores hs hp hgo
      | load1 hreqs hloads hstores hs hstatus hbuf hp =>
          have hnext : s.regs.msgStateNext = .header1 := by rw [BridgeRegs.msgStateNext, hs.1]
          have htype : s.msgTypeNext i = .load := by simp [msgTypeNext, hnext, hs.2.1]
          obtain ⟨h1, h2, h3, h4, h5, h6, h7⟩ := load_word cfg hp hval htype hstatus
          have hdone : s.loadDone i = false := by simp [loadDone, hnext]
          rw [h7, newLoads, hdone, List.append_nil, if_neg (by decide), List.append_nil]
          refine .load2 hreqs hloads hstores ⟨h1.trans hnext, h2, ?_⟩ (rReqStatus_incomp hstatus hdone) ⟨?_, ?_⟩ h6
          · rw [h3, hnext, hs.2.2]
            rfl
          · rw [h4, hnext, ← hbuf]
            rfl
          · rw [h5, hnext]
            rfl
      | @load2 past rest l hreqs hloads hstores hs hstatus hbuf hp =>
          have hnext : s.regs.msgStateNext = .header2 := by rw [BridgeRegs.msgStateNext, hs.1]
          have htype : s.msgTypeNext i = .load := by simp [msgTypeNext, hnext, hs.2.1]
          obtain ⟨h1, h2, h3, h4, h5, h6, h7⟩ := load_word cfg hp hval htype hstatus
          have hdone : s.loadDone i = true := by simp [loadDone, (go_load hval htype hstatus).2.1, hnext]
          have hnew : s.newLoads i = [l] := by
            rw [newLoads, hdone, if_pos rfl, hbuf.1, hbuf.2, (val_cons (i := i) hp).2]
          rw [h7, hnew, List.append_nil]
          refine .between (hreqs.trans (List.append_cons _ _ _)) ?_ ?_ ?_ h6
          · rw [hloads, List.filterMap_append]
            rfl
          · rw [hstores, List.filterMap_append]
            exact (List.append_nil _).symm
          · rw [BridgeRegs.msgStateNext, h1, h3, hnext, hs.2.2]
            rfl
      | store1 hreqs hloads hstores hs hstatus hbuf hp =>
          have hnext : s.regs.msgStateNext = .header1 := by rw [BridgeRegs.msgStateNext, hs.1]
          have htype : s.msgTypeNext i = .store := by simp [msgTypeNext, hnext, hs.2.1]
          obtain ⟨h1, h2, h3, h4, h5, h6, h7, h8⟩ := store_word cfg hp hval htype hstatus
          have hdone : s.storeDone i = false := by simp [storeDone, hnext]
          rw [h8, newStores, hdone, List.append_nil, if_neg (by decide), List.append_nil]
          refine .store2 hreqs hloads hstores ⟨h1.trans hnext, h2, ?_⟩ (wReqStatus_incomp hstatus hdone) ⟨?_, ?_⟩ h7
          · rw [h3, hnext, hs.2.2]
            rfl
          · rw [h4, hnext, ← hbuf]
            rfl
          · rw [h5, hnext]
            rfl
      | store2 hreqs hloads hstores hs hstatus hbuf hp =>
          have hnext : s.regs.msgStateNext = .header2 := by rw [BridgeRegs.msgStateNext, hs.1]
          have htype : s.msgTypeNext i = .store := by simp [msgTypeNext, hnext, hs.2.1]
          obtain ⟨h1, h2, h3, h4, h5, h6, h7, h8⟩ := store_word cfg hp hval htype hstatus
          have hdone : s.storeDone i = false := by simp [storeDone, hnext]
          rw [h8, newStores, hdone, List.append_nil, if_neg (by decide), List.append_nil]
          refine .store3 hreqs hloads hstores ⟨h1.trans hnext, h2, ?_⟩ (wReqStatus_incomp hstatus hdone) ⟨?_, ?_, ?_⟩ h7
          · rw [h3, hnext, hs.2.2]
            rfl
          · rw [h4, hnext, ← hbuf.1]
            rfl
          · rw [h5, hnext, ← hbuf.2]
            rfl
          · rw [h6, hnext]
            rfl
      | @store3 past rest st hreqs hloads hstores hs hstatus hbuf hp =>
          have hnext : s.regs.msgStateNext = .data := by
            rw [BridgeRegs.msgStateNext, hs.1, hs.2.2]
            rfl
          have htype : s.msgTypeNext i = .store := by simp [msgTypeNext, hnext, hs.2.1]
          obtain ⟨h1, h2, h3, h4, h5, h6, h7, h8⟩ := store_word cfg hp hval htype hstatus
          have hdone : s.storeDone i = true := by simp [storeDone, (go_store hval htype hstatus).2.1, hnext, hs.2.2]
          have hnew : s.newStores i = [st] := by
            rw [newStores, hdone, if_pos rfl, hbuf.1, hbuf.2.1, hbuf.2.2, (val_cons (i := i) hp).2]
          rw [h8, hnew, List.append_nil]
          refine .between (hreqs.trans (List.append_cons _ _ _)) ?_ ?_ ?_ h7
          · rw [hloads, List.filterMap_append]
            exact (List.append_nil _).symm
          · rw [hstores, List.filterMap_append]
            rfl
          · rw [BridgeRegs.msgStateNext, h1, h3, hnext, hs.2.2]
            rfl

end Bridge

end OpenPiton.AxiLite
