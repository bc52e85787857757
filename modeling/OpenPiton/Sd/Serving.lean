import OpenPiton.Sd.Accesses
import OpenPiton.Sd.Coherence

namespace OpenPiton.Sd

open L15 (Word)
open Noc1 (fieldType fieldLength)

/-- The blocks after requests. -/
def blocksAfter (c : BlockNo → Block) (reqs : List Request) : BlockNo → Block :=
  reqs.foldl (fun c r => if r.wr then r.wrote c r.words else c) c

theorem blocksAfter_append (c : BlockNo → Block) (reqs : List Request) (r : Request) : blocksAfter c (reqs ++ [r]) =
    if r.wr then r.wrote (blocksAfter c reqs) r.words else blocksAfter c reqs := by
  rw [blocksAfter, List.foldl_append]
  rfl

theorem bytes_blocksAfter (c : BlockNo → Block) {reqs : List Request} (h : ∀ r ∈ reqs, r.WellFormed) :
    bytes (blocksAfter c reqs) = memory (bytes c) reqs := by
  induction reqs using List.reverseRecOn with
  | nil => rfl
  | append_singleton reqs r ih =>
      have ih := ih fun r hr => h r (List.mem_append_left _ hr)
      rw [blocksAfter_append, memory_append, ← ih]
      cases hw : r.wr with
      | true => exact Request.bytes_wrote_words (h r (by simp)) hw _
      | false =>
          funext a
          rw [if_neg Bool.false_ne_true, Request.apply, if_neg (by simp [hw])]

namespace Request

/-- The registers that the first header has set. -/
structure Begun (r : Request) (c : Core) : Prop where
  msgType : c.msgType = r.msgType
  payload : c.payload = fieldLength r.header
  mshr : c.mshr = fieldMshrid r.header

/-- The registers that the headers with the address have set. -/
structure Known (r : Request) (c : Core) : Prop extends r.Begun c where
  addr : c.addr = r.addr
  dataSz : c.dataSz = r.dataSz

/-- The registers that the three headers have set. -/
structure Complete (r : Request) (c : Core) : Prop where
  chipid : c.chipid = fieldSrcChipid r.header3
  srcx : c.srcx = fieldSrcX r.header3
  srcy : c.srcy = fieldSrcY r.header3

end Request

namespace Bridge

/-- All the requests of `done` have been answered, and nothing is under way. -/
structure Settled (c₀ : BlockNo → Block) (done : List Request) (mem : BlockNo → Block) (s : Bridge) : Prop where
  lock : s.manager.lockStatus = false
  reF : s.core.cacheReF = false
  cb : s.core.cbState = .idle ∨ s.core.cbState = .unlock
  taken : s.taken = done.flatMap Request.packet
  sent : s.sent = responses (bytes c₀) done
  locked : s.locked = done.length
  mem_eq : mem = blocksAfter c₀ done

/-- The first header of a request has come. -/
structure Begun (c₀ : BlockNo → Block) (done : List Request) (r : Request) (mem : BlockNo → Block) (s : Bridge) : Prop where
  state : s.core.state = .inHeader1
  begun : r.Begun s.core
  val : ∀ k, s.core.msgDataVal k = false
  lock : s.manager.lockStatus = false
  reF : s.core.cacheReF = false
  cb : s.core.cbState = .idle
  taken : s.taken = done.flatMap Request.packet ++ r.packet.take 1
  sent : s.sent = responses (bytes c₀) done
  locked : s.locked = done.length
  mem_eq : mem = blocksAfter c₀ done

/-- How far the flits of a store are taken: the words of its data and all flits. -/
inductive StoreAt (r : Request) (c : Core) : Nat → Nat → Prop
  | inHeader2 : c.state = .inHeader2 → StoreAt r c 0 2
  | inData {n : Nat} : c.state = .inData → c.counter.toNat = n → n < r.words → r.Complete c → StoreAt r c n (3 + n)
  | waiting : c.state = .waiting → r.Complete c → StoreAt r c r.words (3 + r.words)

/-- A store with `n` of its words taken, of which those below the offset are written. -/
structure Storing (c₀ : BlockNo → Block) (done : List Request) (r : Request) (n k : Nat) (mem : BlockNo → Block)
    (s : Bridge) : Prop where
  known : r.Known s.core
  at_ : StoreAt r s.core n k
  val : ∀ j, s.core.msgDataVal j = decide (j.toNat < n)
  buf : ∀ j, j.toNat < n → s.core.msgDataBuf j = r.word j.toNat
  reF : s.core.cacheReF = false
  cb : s.core.cbState = .buffer2cache
  offset_le : s.core.offset.toNat ≤ n
  offset_lt : s.core.offset.toNat < r.words
  asking : s.manager.lockStatus = false → s.core.offset.toNat = 0
  granted : s.manager.lockStatus = true → s.manager.coreCacheAddrF = r.addr.block ∧ s.manager.coreCacheWeF = true
  taken : s.taken = done.flatMap Request.packet ++ r.packet.take k
  sent : s.sent = responses (bytes c₀) done
  locked : s.locked = done.length + s.manager.lockStatus.toNat
  mem_eq : mem = r.wrote (blocksAfter c₀ done) s.core.offset.toNat

/-- A store that waits to be acknowledged. -/
structure Stored (c₀ : BlockNo → Block) (done : List Request) (r : Request) (mem : BlockNo → Block) (s : Bridge) : Prop where
  known : r.Known s.core
  complete : r.Complete s.core
  state : s.core.state = .outHeader
  reF : s.core.cacheReF = false
  cb : s.core.cbState = .idle ∨ s.core.cbState = .unlock
  release : s.manager.lockStatus = true → s.core.cbState = .unlock ∧ s.manager.state = .lock
  taken : s.taken = done.flatMap Request.packet ++ r.packet
  sent : s.sent = responses (bytes c₀) done
  locked : s.locked = done.length + 1
  mem_eq : mem = blocksAfter c₀ (done ++ [r])

/-- How far a load is: its flits taken, and the flits of its answer sent. -/
inductive LoadAt (r : Request) (m : Mem) (c : Core) : Nat → List Word → Prop
  | inHeader2 : c.state = .inHeader2 → LoadAt r m c 2 []
  | waiting : c.state = .waiting → r.Complete c → LoadAt r m c 3 []
  | outHeader : c.state = .outHeader → r.Complete c → LoadAt r m c 3 []
  | outData : c.state = .outData → c.counter.toNat < 8 → LoadAt r m c 3 ((r.response m).take (c.counter.toNat + 1))

/-- How far the words of a load are read, and whether it has had the lock. -/
inductive Reading (r : Request) (s : Bridge) : Nat → Prop
  | asking : s.core.cbState = .cache2buffer → s.manager.lockStatus = false → s.core.offset = 0 →
      (∀ j, s.core.msgDataVal j = false) → s.core.cacheReF = false → Reading r s 0
  | reading : s.core.cbState = .cache2buffer → s.manager.lockStatus = true →
      s.manager.coreCacheAddrF = r.addr.block → s.core.offset.toNat < r.words →
      (∀ j, s.core.msgDataVal j = true → j.toNat < s.core.offset.toNat) →
      (s.core.cacheReF = true → s.core.offsetF.toNat < s.core.offset.toNat) → Reading r s 1
  | read : s.core.cbState = .unlock → s.manager.lockStatus = true → s.manager.state = .lock →
      (∀ j, s.core.msgDataVal j = true → j.toNat + 1 < r.words) → Reading r s 1
  | released : s.core.cbState = .idle ∨ s.core.cbState = .unlock → s.manager.lockStatus = false →
      s.core.cacheReF = false → Reading r s 1

structure Loading (c₀ : BlockNo → Block) (done : List Request) (r : Request) (k : Nat) (out : List Word) (l : Nat)
    (mem : BlockNo → Block) (s : Bridge) : Prop where
  known : r.Known s.core
  at_ : LoadAt r (bytes mem) s.core k out
  val : ∀ j, s.core.msgDataVal j = true → j.toNat < r.words ∧ s.core.msgDataBuf j = mem r.addr.block (r.columnAt j)
  reF : s.core.cacheReF = true → s.core.offsetF.toNat < r.words ∧
    s.bramDout = mem r.addr.block (r.columnAt s.core.offsetF)
  reading : Reading r s l
  taken : s.taken = done.flatMap Request.packet ++ r.packet.take k
  sent : s.sent = responses (bytes c₀) done ++ out
  locked : s.locked = done.length + l
  mem_eq : mem = blocksAfter c₀ done

/-- Where the service of the requests is. -/
inductive Phase (c₀ : BlockNo → Block) (reqs : List Request) (mem : BlockNo → Block) (s : Bridge) : Prop
  | rst {done rest : List Request} : reqs = done ++ rest → s.core.state = .rst → Settled c₀ done mem s → Phase c₀ reqs mem s
  | idle {done rest : List Request} : reqs = done ++ rest → s.core.state = .idle → Settled c₀ done mem s → Phase c₀ reqs mem s
  | begun {done rest : List Request} {r : Request} : reqs = done ++ r :: rest → Begun c₀ done r mem s → Phase c₀ reqs mem s
  | storing {done rest : List Request} {r : Request} {n k : Nat} : reqs = done ++ r :: rest → r.wr = true →
      Storing c₀ done r n k mem s → Phase c₀ reqs mem s
  | stored {done rest : List Request} {r : Request} : reqs = done ++ r :: rest → r.wr = true →
      Stored c₀ done r mem s → Phase c₀ reqs mem s
  | loading {done rest : List Request} {r : Request} {k l : Nat} {out : List Word} : reqs = done ++ r :: rest →
      r.wr = false → Loading c₀ done r k out l mem s → Phase c₀ reqs mem s

variable {cfg : Cfg} {S : Set BlockNo} {c₀ mem : BlockNo → Block} {reqs done rest : List Request} {r : Request} {s : Bridge} {i : Input}
  {w : Word} {k : Nat}

theorem taken_none (h : s.core.accepted (s.coreIn i) = none) : (s.step cfg i).taken = s.taken := by
  change s.taken ++ (s.core.accepted (s.coreIn i)).toList = _
  rw [h]
  exact List.append_nil _

theorem taken_some (hf : s.Feeds cfg reqs i) (hreqs : reqs = done ++ r :: rest)
    (ht : s.taken = done.flatMap Request.packet ++ r.packet.take k) (hk : k < r.packet.length)
    (h : s.core.accepted (s.coreIn i) = some w) :
    w = r.packet.getD k 0 ∧ (s.step cfg i).taken = done.flatMap Request.packet ++ r.packet.take (k + 1) := by
  have hstep : (s.step cfg i).taken = s.taken ++ [w] := by
    change s.taken ++ (s.core.accepted (s.coreIn i)).toList = _
    rw [h]
    rfl
  have hpre : s.taken ++ [w] <+: reqs.flatMap Request.packet := hstep ▸ hf
  rw [ht, hreqs, List.flatMap_append, List.append_assoc, List.prefix_append_right_inj, List.flatMap_cons] at hpre
  have hlen : (r.packet.take k ++ [w]).length = k + 1 := by
    rw [List.length_append, List.length_take, Nat.min_eq_left hk.le]
    rfl
  have heq : r.packet.take k ++ [w] = r.packet.take (k + 1) := by
    rw [List.prefix_iff_eq_take, hlen, List.take_append_of_le_length hk] at hpre
    exact hpre
  rw [hstep, ht, List.append_assoc, heq]
  refine ⟨?_, rfl⟩
  rw [List.take_succ_eq_append_getElem hk] at heq
  rw [List.getD_eq_getElem?_getD, List.getElem?_eq_getElem hk]
  exact (List.cons.inj (List.append_cancel_left heq)).1

theorem ce_of_cb (h : s.core.cbState = .idle ∨ s.core.cbState = .unlock) : s.core.coreBufferCe (s.coreIn i) = false := by
  rw [Core.coreBufferCe]
  rcases h with h | h <;> rw [h]

theorem memNext_of_ce (h : s.core.coreBufferCe (s.coreIn i) = false) : s.memNext mem i = mem :=
  memNext_kept (by rw [coreWrites, h, Bool.false_and])

theorem reF_of_ce (h : s.core.coreBufferCe (s.coreIn i) = false) : (s.step cfg i).core.cacheReF = false := by
  change (s.core.coreBufferCe (s.coreIn i) && !s.core.coreBufferWr) = false
  rw [h, Bool.false_and]

theorem not_locks (h : s.core.cacheLockAcquire (s.coreIn i) = false) : s.locks i = false := by
  rw [locks, Manager.lock, show (s.managerIn i).lockAcquire = false from h, Bool.false_and, Bool.and_false]

theorem locked_kept (h : s.locks i = false) : (s.step cfg i).locked = s.locked := by
  change s.locked + (s.locks i).toNat = _
  rw [h]
  rfl

theorem sent_kept (h : s.core.bridgeSplitterVal = false) : (s.step cfg i).sent = s.sent := by
  change s.sent ++ (if s.core.bridgeSplitterGo (s.coreIn i) then _ else _) = _
  rw [Core.bridgeSplitterGo, h, Bool.and_false]
  exact List.append_nil _

theorem acquire_of_cb (h : s.core.cbState = .idle ∨ s.core.cbState = .unlock) (hs : s.core.state ≠ .inHeader1) :
    s.core.cacheLockAcquire (s.coreIn i) = false := by
  rw [Core.cacheLockAcquire]
  rcases h with h | h <;> simp [h, hs]

theorem cb_of_cb (h : s.core.cbState = .idle ∨ s.core.cbState = .unlock) (hs : s.core.state ≠ .inHeader1)
    (hl : s.manager.lockStatus = false) : (s.step cfg i).core.cbState = .idle := by
  change s.core.cbStateNext (s.coreIn i) = _
  have ha := acquire_of_cb (i := i) h hs
  rw [Core.cbStateNext, ha]
  rcases h with h | h <;> simp [h, coreIn, hl]

theorem Settled.step (h : Settled c₀ done mem s) (hc : s.Coherent cfg S mem) (hs : s.core.state = .rst ∨ s.core.state = .idle)
    (ha : s.core.accepted (s.coreIn i) = none) : Settled c₀ done (s.memNext mem i) (s.step cfg i) := by
  have hne : s.core.state ≠ .inHeader1 := by rcases hs with hs | hs <;> simp [hs]
  have hce := ce_of_cb (i := i) h.cb
  have hlocks := not_locks (acquire_of_cb (i := i) h.cb hne)
  refine ⟨?_, reF_of_ce hce, .inl (cb_of_cb h.cb hne h.lock), ?_, ?_, ?_, ?_⟩
  · rw [(hc.unlocked_step h.lock).1, hlocks]
  · rw [taken_none ha, h.taken]
  · rw [sent_kept (by rcases hs with hs | hs <;> rw [Core.bridgeSplitterVal, hs]), h.sent]
  · rw [locked_kept hlocks, h.locked]
  · rw [memNext_of_ce hce, h.mem_eq]

theorem Phase.step_rst (hreqs : reqs = done ++ rest) (hs : s.core.state = .rst) (h : Settled c₀ done mem s)
    (hc : s.Coherent cfg S mem) : Phase c₀ reqs (s.memNext mem i) (s.step cfg i) := by
  have ha : s.core.accepted (s.coreIn i) = none := by rw [Core.accepted, Core.bridgeSplitterRdy, hs, if_neg Bool.false_ne_true]
  refine .idle hreqs ?_ (h.step hc (.inl hs) ha)
  change s.core.stateNext (s.coreIn i) = _
  rw [Core.stateNext, hs]

theorem Phase.step_idle (hreqs : reqs = done ++ rest) (hs : s.core.state = .idle) (h : Settled c₀ done mem s)
    (hc : s.Coherent cfg S mem) (hf : s.Feeds cfg reqs i) : Phase c₀ reqs (s.memNext mem i) (s.step cfg i) := by
  have hne : s.core.state ≠ .inHeader1 := by simp [hs]
  cases ha : s.core.accepted (s.coreIn i) with
  | none =>
      refine .idle hreqs ?_ (h.step hc (.inr hs) ha)
      change s.core.stateNext (s.coreIn i) = _
      rw [Core.stateNext, hs, Core.splitterBridgeGo, ha]
      rfl
  | some w =>
      obtain ⟨r, rest, rfl⟩ : ∃ r rest', rest = r :: rest' := by
        cases hr : rest with
        | nil =>
            have hpre : s.taken ++ (s.core.accepted (s.coreIn i)).toList <+: _ := hf
            rw [ha, h.taken, hreqs, hr, List.append_nil] at hpre
            have := hpre.length_le
            rw [List.length_append, Option.toList_some, List.length_singleton] at this
            omega
        | cons r rest => exact ⟨r, rest, rfl⟩
      have htake : s.taken = done.flatMap Request.packet ++ r.packet.take 0 := by
        rw [h.taken, List.take_zero, List.append_nil]
      obtain ⟨hw, htaken⟩ := taken_some (k := 0) hf hreqs htake (Nat.succ_pos _) ha
      change w = r.header at hw
      have hgo : s.core.splitterBridgeGo (s.coreIn i) = true := by rw [Core.splitterBridgeGo, ha, Option.isSome_some]
      have hdata : s.core.splitterBridgeData (s.coreIn i) = r.header := by rw [Core.splitterBridgeData, ha, Option.getD_some, hw]
      have hce := ce_of_cb (i := i) h.cb
      have hlocks := not_locks (acquire_of_cb (i := i) h.cb hne)
      have hwrite : s.core.dataWrite (s.coreIn i) = none := by simp [Core.dataWrite, hs, h.reF]
      refine .begun hreqs ⟨?_, ⟨?_, ?_, ?_⟩, fun k => ?_, ?_, reF_of_ce hce, cb_of_cb h.cb hne h.lock, htaken, ?_, ?_, ?_⟩
      · change s.core.stateNext (s.coreIn i) = _
        rw [Core.stateNext, hs, hgo, if_pos rfl]
      · change (if _ then _ else _) = _
        rw [if_pos ⟨hs, hgo⟩, hdata]
        rfl
      · change (if _ then _ else _) = _
        rw [if_pos ⟨hs, hgo⟩, hdata]
      · change (if _ then _ else _) = _
        rw [if_pos ⟨hs, hgo⟩, hdata]
      · simp [Bridge.step, Core.step, hwrite, hs]
      · rw [(hc.unlocked_step h.lock).1, hlocks]
      · rw [sent_kept (by rw [Core.bridgeSplitterVal, hs]), h.sent]
      · rw [locked_kept hlocks, h.locked]
      · rw [memNext_of_ce hce, h.mem_eq]

theorem Phase.step_begun (hwf : r.WellFormed) (hreqs : reqs = done ++ r :: rest) (h : Begun c₀ done r mem s)
    (hc : s.Coherent cfg S mem) (hf : s.Feeds cfg reqs i) : Phase c₀ reqs (s.memNext mem i) (s.step cfg i) := by
  have hs := h.state
  have hkind : (s.core.rd || s.core.wr) = true := by
    rw [Core.rd, Core.wr, h.begun.msgType]
    rcases hwf.kind with hk | hk <;> simp [hk]
  have hce := ce_of_cb (i := i) (.inl h.cb)
  have hwrite : s.core.dataWrite (s.coreIn i) = none := by simp [Core.dataWrite, hs, h.reF]
  have hval (k : BitVec 3) : (s.step cfg i).core.msgDataVal k = false := by
    simp [Bridge.step, Core.step, hwrite, hs, h.val]
  have hoffset : (s.step cfg i).core.offset = 0 := by
    change s.core.offsetNext (s.coreIn i) = 0
    rw [Core.offsetNext, h.cb]
  have hsent : (s.step cfg i).sent = responses (bytes c₀) done := by
    rw [sent_kept (by rw [Core.bridgeSplitterVal, hs]), h.sent]
  have hmem : s.memNext mem i = blocksAfter c₀ done := by
    rw [memNext_of_ce hce, h.mem_eq]
  have hmsgType : (s.step cfg i).core.msgType = r.msgType := by
    simp [Bridge.step, Core.step, hs, h.begun.msgType]
  have hpayload : (s.step cfg i).core.payload = fieldLength r.header := by
    simp [Bridge.step, Core.step, hs, h.begun.payload]
  have hmshr : (s.step cfg i).core.mshr = fieldMshrid r.header := by
    simp [Bridge.step, Core.step, hs, h.begun.mshr]
  have hlock := (hc.unlocked_step (i := i) h.lock).1
  cases ha : s.core.accepted (s.coreIn i) with
  | none =>
      have hgo : s.core.splitterBridgeGo (s.coreIn i) = false := by rw [Core.splitterBridgeGo, ha, Option.isSome_none]
      have hacquire : s.core.cacheLockAcquire (s.coreIn i) = false := by
        rw [Core.cacheLockAcquire, h.cb, hgo, Bool.and_false]
      have hlocks := not_locks hacquire
      refine .begun hreqs ⟨?_, ⟨hmsgType, hpayload, hmshr⟩, hval, ?_, reF_of_ce hce, ?_, ?_, hsent, ?_, hmem⟩
      · change s.core.stateNext (s.coreIn i) = _
        rw [Core.stateNext, hs]
        dsimp only
        rw [if_pos hkind, hgo, if_neg Bool.false_ne_true]
      · rw [hlock, hlocks]
      · change s.core.cbStateNext (s.coreIn i) = _
        rw [Core.cbStateNext, h.cb, hacquire, if_neg Bool.false_ne_true]
      · rw [taken_none ha, h.taken]
      · rw [locked_kept hlocks, h.locked]
  | some w =>
      obtain ⟨hw, htaken⟩ := taken_some hf hreqs h.taken (show 1 < r.packet.length by simp [Request.packet]) ha
      change w = r.header2 at hw
      have hgo : s.core.splitterBridgeGo (s.coreIn i) = true := by rw [Core.splitterBridgeGo, ha, Option.isSome_some]
      have hdata : s.core.splitterBridgeData (s.coreIn i) = r.header2 := by
        rw [Core.splitterBridgeData, ha, Option.getD_some, hw]
      have hstate : (s.step cfg i).core.state = .inHeader2 := by
        change s.core.stateNext (s.coreIn i) = _
        rw [Core.stateNext, hs]
        dsimp only
        rw [if_pos hkind, hgo, if_pos rfl]
      have haddr : (s.step cfg i).core.addr = r.addr := by
        change (if _ then _ else _) = _
        rw [if_pos ⟨hs, hgo⟩, hdata]
        rfl
      have hdataSz : (s.step cfg i).core.dataSz = r.dataSz := by
        change (if _ then _ else _) = _
        rw [if_pos ⟨hs, hgo⟩, hdata]
        rfl
      have hacquire : s.core.cacheLockAcquire (s.coreIn i) = true := by
        rw [Core.cacheLockAcquire, h.cb, hgo, hs]
        rfl
      have hblock : s.core.coreCacheAddr (s.coreIn i) = r.addr.block := by
        rw [Core.coreCacheAddr, if_pos hs, hdata]
        rfl
      have hwr : s.core.wr = r.wr := by rw [Core.wr, h.begun.msgType, Request.wr]
      have hcb : (s.step cfg i).core.cbState = if r.wr then .buffer2cache else .cache2buffer := by
        change s.core.cbStateNext (s.coreIn i) = _
        rw [Core.cbStateNext, h.cb, hacquire, hwr, if_pos rfl]
      have hlocked : (s.step cfg i).locked = done.length + (s.step cfg i).manager.lockStatus.toNat := by
        rw [hlock, ← h.locked]
        rfl
      have hgranted : (s.step cfg i).manager.lockStatus = true →
          (s.step cfg i).manager.coreCacheAddrF = r.addr.block ∧ (s.step cfg i).manager.coreCacheWeF = r.wr := by
        intro hl
        obtain ⟨ha', hwe⟩ := (hc.unlocked_step h.lock).2 (hlock.symm.trans hl)
        exact ⟨ha'.trans hblock, hwe.trans hwr⟩
      cases hr : r.wr with
      | true =>
          rw [hr] at hcb hgranted
          refine .storing hreqs hr (n := 0) (k := 2) ⟨⟨⟨hmsgType, hpayload, hmshr⟩, haddr, hdataSz⟩, .inHeader2 hstate, fun j => ?_,
            fun j hj => absurd hj (Nat.not_lt_zero _), reF_of_ce hce, hcb, ?_, ?_, fun _ => ?_, hgranted, htaken, hsent,
            hlocked, ?_⟩
          · rw [hval j, decide_eq_false (Nat.not_lt_zero _)]
          · rw [hoffset]
            exact le_rfl
          · rw [hoffset]
            exact Request.words_pos
          · rw [hoffset]
            rfl
          · rw [hmem, hoffset]
            rfl
      | false =>
          rw [hr] at hcb hgranted
          have hreF : (s.step cfg i).core.cacheReF = false := reF_of_ce hce
          have hreading : Reading r (s.step cfg i) (s.step cfg i).manager.lockStatus.toNat := by
            cases hl : (s.step cfg i).manager.lockStatus with
            | false => exact .asking hcb hl hoffset hval hreF
            | true =>
                refine .reading hcb hl (hgranted hl).1 ?_ (fun j hj => ?_) fun hre => ?_
                · rw [hoffset]
                  exact Request.words_pos
                · rw [hval j] at hj
                  cases hj
                · rw [hreF] at hre
                  cases hre
          refine .loading hreqs hr (k := 2) ⟨⟨⟨hmsgType, hpayload, hmshr⟩, haddr, hdataSz⟩, .inHeader2 hstate, fun j hj => ?_,
            fun hre => ?_, hreading, htaken, ?_, hlocked, hmem⟩
          · rw [hval j] at hj
            cases hj
          · rw [hreF] at hre
            cases hre
          · rw [hsent, List.append_nil]

theorem known_step (h : r.Known s.core) (hs : s.core.state ≠ .idle) (hs' : s.core.state ≠ .inHeader1) :
    r.Known (s.step cfg i).core := by
  obtain ⟨⟨hm, hp, hmshr⟩, ha, hd⟩ := h
  refine ⟨⟨?_, ?_, ?_⟩, ?_, ?_⟩ <;> simpa [Bridge.step, Core.step, hs, hs']

theorem complete_step (cfg : Cfg) (i : Input) (h : r.Complete s.core) (hs : s.core.state ≠ .inHeader2) : r.Complete (s.step cfg i).core := by
  obtain ⟨hc, hx, hy⟩ := h
  refine ⟨?_, ?_, ?_⟩ <;> simpa [Bridge.step, Core.step, hs]

theorem complete_of_header3 (hs : s.core.state = .inHeader2) (hgo : s.core.splitterBridgeGo (s.coreIn i) = true)
    (hdata : s.core.splitterBridgeData (s.coreIn i) = r.header3) : r.Complete (s.step cfg i).core := by
  refine ⟨?_, ?_, ?_⟩
  · change (if _ then _ else _) = _
    rw [if_pos ⟨hs, hgo⟩, hdata]
  · change (if _ then _ else _) = _
    rw [if_pos ⟨hs, hgo⟩, hdata]
  · change (if _ then _ else _) = _
    rw [if_pos ⟨hs, hgo⟩, hdata]

theorem lastOffset_iff (hwf : r.WellFormed) (hw : r.wr = true) (hk : r.Known s.core) (j : Nat) :
    lastOffset s.core.payload j = true ↔ j + 1 = r.words := by
  have hlen := hwf.length
  rw [hwf.data, hw, if_pos rfl] at hlen
  rw [lastOffset, hk.payload, beq_iff_eq, hlen]
  omega

theorem not_rd_of_wr : ∀ t : BitVec 8, isWr t = true → isRd t = false := by
  decide

theorem data_val_kept (cfg : Cfg) (h : s.core.dataWrite (s.coreIn i) = none) (hs : s.core.state ≠ .idle) :
    (s.step cfg i).core.msgDataVal = s.core.msgDataVal ∧ (s.step cfg i).core.msgDataBuf = s.core.msgDataBuf := by
  simp [Bridge.step, Core.step, h, hs]

/-- The words of a store that have come, after a cycle. -/
theorem StoreAt.step {n : Nat} (hwf : r.WellFormed) (hw : r.wr = true) (hreqs : reqs = done ++ r :: rest)
    (hk : r.Known s.core) (h : StoreAt r s.core n k) (hval : ∀ j, s.core.msgDataVal j = decide (j.toNat < n))
    (hbuf : ∀ j, j.toNat < n → s.core.msgDataBuf j = r.word j.toNat) (hreF : s.core.cacheReF = false)
    (ht : s.taken = done.flatMap Request.packet ++ r.packet.take k) (hf : s.Feeds cfg reqs i)
    (hstay : s.core.state = .waiting → s.core.stateNext (s.coreIn i) = .waiting) :
    ∃ n' k', n ≤ n' ∧ StoreAt r (s.step cfg i).core n' k' ∧
      (s.step cfg i).taken = done.flatMap Request.packet ++ r.packet.take k' ∧
      (∀ j, (s.step cfg i).core.msgDataVal j = decide (j.toNat < n')) ∧
      ∀ j, j.toNat < n' → (s.step cfg i).core.msgDataBuf j = r.word j.toNat := by
  have hdata : r.data.length = r.words := by rw [hwf.data, hw, if_pos rfl]
  have hlen : r.packet.length = 3 + r.words := by
    simp [Request.packet, hdata]
    omega
  have hle := Request.words_le hwf
  have hwr : s.core.wr = true := by rw [Core.wr, hk.msgType]; exact hw
  have hstate : (s.step cfg i).core.state = s.core.stateNext (s.coreIn i) := rfl
  cases h with
  | inHeader2 hs =>
      have hnone : s.core.dataWrite (s.coreIn i) = none := by simp [Core.dataWrite, hs, hreF]
      obtain ⟨hval', hbuf'⟩ := data_val_kept cfg hnone (by simp [hs])
      rw [Core.stateNext, hs] at hstate
      dsimp only at hstate
      cases ha : s.core.accepted (s.coreIn i) with
      | none =>
          rw [Core.splitterBridgeGo, ha, Option.isSome_none, if_neg Bool.false_ne_true] at hstate
          refine ⟨0, 2, le_rfl, .inHeader2 hstate, by rw [taken_none ha, ht], ?_, ?_⟩
          · rw [hval']
            exact hval
          · rw [hbuf']
            exact hbuf
      | some w =>
          obtain ⟨hw', htaken⟩ := taken_some hf hreqs ht (by omega) ha
          change w = r.header3 at hw'
          have hgo : s.core.splitterBridgeGo (s.coreIn i) = true := by rw [Core.splitterBridgeGo, ha, Option.isSome_some]
          have hdata' : s.core.splitterBridgeData (s.coreIn i) = r.header3 := by
            rw [Core.splitterBridgeData, ha, Option.getD_some, hw']
          rw [hgo, if_pos rfl, hwr, if_pos rfl] at hstate
          have hcounter : (s.step cfg i).core.counter.toNat = 0 := by
            change (s.core.counterNext (s.coreIn i)).toNat = 0
            rw [Core.counterNext, hs]
            rfl
          refine ⟨0, 3 + 0, le_rfl, .inData hstate hcounter Request.words_pos (complete_of_header3 hs hgo hdata'), htaken, ?_, ?_⟩
          · rw [hval']
            exact hval
          · rw [hbuf']
            exact hbuf
  | inData hs hcounter hn hcomplete =>
      have hcomplete' := complete_step cfg i hcomplete (by simp [hs])
      rw [Core.stateNext, hs] at hstate
      dsimp only at hstate
      cases ha : s.core.accepted (s.coreIn i) with
      | none =>
          have hgo : s.core.splitterBridgeGo (s.coreIn i) = false := by rw [Core.splitterBridgeGo, ha, Option.isSome_none]
          have hnone : s.core.dataWrite (s.coreIn i) = none := by simp [Core.dataWrite, hgo, hreF]
          obtain ⟨hval', hbuf'⟩ := data_val_kept cfg hnone (by simp [hs])
          rw [hgo, Bool.false_and, if_neg Bool.false_ne_true] at hstate
          have hcounter' : (s.step cfg i).core.counter.toNat = n := by
            change (s.core.counterNext (s.coreIn i)).toNat = n
            rw [Core.counterNext, hs]
            dsimp only
            rw [hgo, if_neg Bool.false_ne_true, hcounter]
          refine ⟨n, 3 + n, le_rfl, .inData hstate hcounter' hn hcomplete', by rw [taken_none ha, ht], ?_, ?_⟩
          · rw [hval']
            exact hval
          · rw [hbuf']
            exact hbuf
      | some w =>
          obtain ⟨hw', htaken⟩ := taken_some hf hreqs ht (by omega) ha
          have hw' : w = r.word n := by
            rw [hw', Nat.add_comm]
            rfl
          have hgo : s.core.splitterBridgeGo (s.coreIn i) = true := by rw [Core.splitterBridgeGo, ha, Option.isSome_some]
          have hdata' : s.core.splitterBridgeData (s.coreIn i) = r.word n := by
            rw [Core.splitterBridgeData, ha, Option.getD_some, hw']
          have hwrite : s.core.dataWrite (s.coreIn i) = some (s.core.counter.setWidth 3, r.word n) := by
            rw [Core.dataWrite, if_pos ⟨hs, hgo⟩, hdata']
          have hj (j : BitVec 3) : j = s.core.counter.setWidth 3 ↔ j.toNat = n := by
            rw [← BitVec.toNat_inj, BitVec.toNat_setWidth, hcounter]
            omega
          have hval' (j : BitVec 3) : (s.step cfg i).core.msgDataVal j = decide (j.toNat < n + 1) := by
            have hstep : (s.step cfg i).core.msgDataVal = Function.update s.core.msgDataVal (s.core.counter.setWidth 3) true := by
              simp [Bridge.step, Core.step, hwrite, setAt_eq]
            rw [hstep]
            by_cases hjn : j = s.core.counter.setWidth 3
            · rw [hjn, Function.update_self, ← hjn, decide_eq_true]
              have := (hj j).mp hjn
              omega
            · rw [Function.update_of_ne hjn, hval j]
              have := mt (hj j).mpr hjn
              exact decide_eq_decide.mpr (by omega)
          have hbuf' (j : BitVec 3) (hjn : j.toNat < n + 1) : (s.step cfg i).core.msgDataBuf j = r.word j.toNat := by
            have hstep : (s.step cfg i).core.msgDataBuf =
                Function.update s.core.msgDataBuf (s.core.counter.setWidth 3) (r.word n) := by
              simp [Bridge.step, Core.step, hwrite, setAt_eq]
            rw [hstep]
            by_cases hjn' : j = s.core.counter.setWidth 3
            · rw [hjn', Function.update_self, ← hjn', (hj j).mp hjn']
            · have := mt (hj j).mpr hjn'
              rw [Function.update_of_ne hjn', hbuf j (by omega)]
          rw [hgo, Bool.true_and] at hstate
          by_cases hlast : n + 1 = r.words
          · rw [hcounter, (lastOffset_iff hwf hw hk n).mpr hlast, if_pos rfl] at hstate
            refine ⟨r.words, 3 + r.words, by omega, .waiting hstate hcomplete', ?_, ?_, ?_⟩
            · rw [htaken, ← hlast]
              rfl
            · rw [← hlast]
              exact hval'
            · rw [← hlast]
              exact hbuf'
          · rw [hcounter, if_neg (mt (lastOffset_iff hwf hw hk n).mp hlast)] at hstate
            have hcounter' : (s.step cfg i).core.counter.toNat = n + 1 := by
              change (s.core.counterNext (s.coreIn i)).toNat = n + 1
              rw [Core.counterNext, hs]
              dsimp only
              rw [hgo, if_pos rfl, Counter.toNat_succ (by omega), hcounter]
            exact ⟨n + 1, 3 + (n + 1), by omega, .inData hstate hcounter' (by omega) hcomplete', htaken, hval', hbuf'⟩
  | waiting hs hcomplete =>
      have hnone : s.core.dataWrite (s.coreIn i) = none := by simp [Core.dataWrite, hs, hreF]
      obtain ⟨hval', hbuf'⟩ := data_val_kept cfg hnone (by simp [hs])
      have ha : s.core.accepted (s.coreIn i) = none := by
        rw [Core.accepted, Core.bridgeSplitterRdy, hs, if_neg Bool.false_ne_true]
      refine ⟨r.words, 3 + r.words, le_rfl, .waiting (hstate.trans (hstay hs)) (complete_step cfg i hcomplete (by simp [hs])),
        by rw [taken_none ha, ht], ?_, ?_⟩
      · rw [hval']
        exact hval
      · rw [hbuf']
        exact hbuf

theorem extract_append (e : Entry) (x : BitVec 9) :
    (show BitVec 12 from e ++ x).extractLsb' 3 6 = x.extractLsb' 3 6 ∧
      (show BitVec 12 from e ++ x).extractLsb' 0 3 = x.extractLsb' 0 3 := by
  constructor
  · apply BitVec.eq_of_getLsbD_eq
    intro i hi
    grind
  · apply BitVec.eq_of_getLsbD_eq
    intro i hi
    grind

theorem coreColumn_eq (hk : r.Known s.core) : s.coreColumn = r.columnAt s.core.offset := by
  rw [coreColumn, coreBufferAddr, Core.coreBufferAddr, hk.addr, hk.dataSz]
  exact (extract_append _ _).1

theorem corePlace_eq (hk : r.Known s.core) : s.coreBufferAddr.extractLsb' 0 3 = r.placeAt s.core.offset := by
  rw [coreBufferAddr, Core.coreBufferAddr, hk.addr, hk.dataSz]
  exact (extract_append _ _).2

theorem memNext_store (hk : r.Known s.core) (hw : s.coreWrites i = true)
    (hblock : s.manager.coreCacheAddrF = r.addr.block)
    (hbuf : s.core.msgDataBuf s.core.offset = r.word s.core.offset.toNat) :
    s.memNext mem i = r.storeWord s.core.offset mem := by
  rw [memNext, if_pos hw, hblock, coreColumn_eq hk, corePlace_eq hk, hk.dataSz, Core.coreBufferData, hbuf]
  rfl

/-- A request without the lock goes on asking for its block, and a request with it keeps it. -/
theorem grant_step (hc : s.Coherent cfg S mem) (hk : r.Known s.core) (hs : s.core.state ≠ .inHeader1)
    (hr : s.core.cacheLockRelease = false)
    (hgranted : s.manager.lockStatus = true → s.manager.coreCacheAddrF = r.addr.block ∧ s.manager.coreCacheWeF = r.wr) :
    ((s.step cfg i).manager.lockStatus = true →
      (s.step cfg i).manager.coreCacheAddrF = r.addr.block ∧ (s.step cfg i).manager.coreCacheWeF = r.wr) ∧
    (s.manager.lockStatus = true → (s.step cfg i).manager.lockStatus = true) ∧
    (s.step cfg i).locked + s.manager.lockStatus.toNat = s.locked + (s.step cfg i).manager.lockStatus.toNat := by
  cases hl : s.manager.lockStatus with
  | false =>
      obtain ⟨hlock, hgot⟩ := hc.unlocked_step (i := i) hl
      refine ⟨fun hl' => ?_, fun hl' => (Bool.false_ne_true hl').elim, ?_⟩
      · obtain ⟨ha, hwe⟩ := hgot (hlock.symm.trans hl')
        rw [ha, hwe, Core.coreCacheAddr, if_neg hs, hk.addr, Core.wr, hk.msgType]
        exact ⟨rfl, rfl⟩
      · rw [hlock]
        rfl
  | true =>
      obtain ⟨hlocks, ha, hwe, hkeep, -⟩ := hc.locked_step (i := i) hl
      refine ⟨fun _ => ?_, fun _ => hkeep hr, ?_⟩
      · rw [ha, hwe]
        exact hgranted hl
      · rw [locked_kept hlocks, hkeep hr]

theorem Phase.step_storing {n : Nat} (hwf : r.WellFormed) (hreqs : reqs = done ++ r :: rest) (hw : r.wr = true)
    (h : Storing c₀ done r n k mem s) (hc : s.Coherent cfg S mem) (hf : s.Feeds cfg reqs i) :
    Phase c₀ reqs (s.memNext mem i) (s.step cfg i) := by
  have hk := h.known
  have hle := Request.words_le hwf
  have hwr : s.core.wr = true := by
    rw [Core.wr, hk.msgType]
    exact hw
  have hrd : s.core.rd = false := not_rd_of_wr _ hwr
  have hi : s.core.state ≠ .idle ∧ s.core.state ≠ .inHeader1 ∧ s.core.bridgeSplitterVal = false := by
    cases h.at_ with
    | inHeader2 hs => simp [Core.bridgeSplitterVal, hs]
    | inData hs => simp [Core.bridgeSplitterVal, hs]
    | waiting hs => simp [Core.bridgeSplitterVal, hs]
  have hk' : r.Known (s.step cfg i).core := known_step hk hi.1 hi.2.1
  have hrelease : s.core.cacheLockRelease = false := by rw [Core.cacheLockRelease, h.cb]; rfl
  have hce : s.core.coreBufferCe (s.coreIn i) = (Core.granted (s.coreIn i) && s.core.msgDataVal s.core.offset) := by
    rw [Core.coreBufferCe, h.cb]
  have hwrites : s.coreWrites i = s.core.coreBufferCe (s.coreIn i) := by
    rw [coreWrites, Core.coreBufferWr, h.cb]
    exact Bool.and_true _
  have hreF' : (s.step cfg i).core.cacheReF = false := by
    change (s.core.coreBufferCe (s.coreIn i) && !s.core.coreBufferWr) = false
    rw [Core.coreBufferWr, h.cb]
    exact Bool.and_false _
  have hsent : (s.step cfg i).sent = responses (bytes c₀) done := by rw [sent_kept hi.2.2, h.sent]
  obtain ⟨hgranted, hkeep, hlocked⟩ := grant_step (i := i) hc hk hi.2.1 hrelease fun hl => hw ▸ h.granted hl
  rw [h.locked] at hlocked
  have hcb : (s.step cfg i).core.cbState =
      if lastOffset s.core.payload s.core.offset.toNat && s.core.coreBufferCe (s.coreIn i) then .unlock else .buffer2cache := by
    change s.core.cbStateNext (s.coreIn i) = _
    rw [Core.cbStateNext, h.cb]
  have hoffset : (s.step cfg i).core.offset =
      if s.core.coreBufferCe (s.coreIn i) then s.core.offset + 1 else s.core.offset := by
    change s.core.offsetNext (s.coreIn i) = _
    rw [Core.offsetNext, h.cb]
  -- a word is written when it has come and the buffer is ready
  have hwritten : s.core.coreBufferCe (s.coreIn i) = true → s.manager.lockStatus = true ∧ s.core.offset.toNat < n ∧
      (s.manager.state = .update ∨ s.manager.state = .lock) ∧
      s.memNext mem i = r.wrote (blocksAfter c₀ done) (s.core.offset.toNat + 1) := by
    intro hc'
    have hstate := state_of_ce hc'
    rw [hce, Bool.and_eq_true, h.val, decide_eq_true_iff] at hc'
    have hl : s.manager.lockStatus = true := ((Bool.and_eq_true _ _).mp hc'.1).1
    refine ⟨hl, hc'.2, hstate, ?_⟩
    rw [memNext_store hk (by rw [hwrites, hce, h.val, hc'.1, decide_eq_true hc'.2]; rfl) (h.granted hl).1 (h.buf _ hc'.2),
      Request.wrote, ← h.mem_eq, BitVec.ofNat_toNat, BitVec.setWidth_eq]
  by_cases hlast : s.core.coreBufferCe (s.coreIn i) = true ∧ s.core.offset.toNat + 1 = r.words
  · -- the last word of the store
    obtain ⟨hl, hlt, hstate, hmem⟩ := hwritten hlast.1
    obtain ⟨hs, hcomplete, rfl, rfl⟩ : s.core.state = .waiting ∧ r.Complete s.core ∧ n = r.words ∧ k = 3 + r.words := by
      cases h.at_ with
      | inHeader2 => exact absurd hlt (Nat.not_lt_zero _)
      | inData _ _ hn => omega
      | waiting hs hcomplete => exact ⟨hs, hcomplete, rfl, rfl⟩
    have ha : s.core.accepted (s.coreIn i) = none := by
      rw [Core.accepted, Core.bridgeSplitterRdy, hs, if_neg Bool.false_ne_true]
    have hgr : Core.granted (s.coreIn i) = true := by
      have := hlast.1
      rw [hce, Bool.and_eq_true] at this
      exact this.1
    have hlo : lastOffset s.core.payload s.core.offset.toNat = true := (lastOffset_iff hwf hw hk _).mpr hlast.2
    rw [hlo, hlast.1, Bool.and_true, if_pos rfl] at hcb
    refine .stored hreqs hw ⟨hk', complete_step cfg i hcomplete (by simp [hs]), ?_, hreF', .inr hcb, fun _ => ⟨hcb, ?_⟩, ?_,
      hsent, ?_, ?_⟩
    · change s.core.stateNext (s.coreIn i) = _
      rw [Core.stateNext, hs]
      simp [hgr, hwr, hlo]
    · exact Coherent.state_step hstate hrelease
    · rw [taken_none ha, h.taken, List.take_of_length_le]
      rw [Request.packet, List.length_cons, List.length_cons, List.length_cons, hwf.data, hw, if_pos rfl]
      omega
    · rw [hl, hkeep hl] at hlocked
      exact Nat.add_right_cancel hlocked
    · rw [hmem, hlast.2, blocksAfter_append, hw, if_pos rfl]
  · have hnot : (lastOffset s.core.payload s.core.offset.toNat && s.core.coreBufferCe (s.coreIn i)) = false := by
      rw [Bool.and_eq_false_iff]
      by_cases hc' : s.core.coreBufferCe (s.coreIn i) = true
      · left
        rw [Bool.eq_false_iff]
        exact fun hlo => hlast ⟨hc', (lastOffset_iff hwf hw hk _).mp hlo⟩
      · exact .inr (Bool.not_eq_true _ ▸ hc')
    have hstay : s.core.state = .waiting → s.core.stateNext (s.coreIn i) = .waiting := by
      intro hs
      have hn : n = r.words := by
        cases h.at_ with
        | inHeader2 hs' => simp [hs] at hs'
        | inData hs' => simp [hs] at hs'
        | waiting => rfl
      have hval := h.val s.core.offset
      rw [decide_eq_true (by have := h.offset_lt; omega)] at hval
      rw [hce, hval, Bool.and_true] at hnot
      rw [Core.stateNext, hs]
      dsimp only
      rw [hwr, hrd, Bool.true_and, Bool.or_false, Bool.and_comm, hnot, if_neg Bool.false_ne_true]
    obtain ⟨n', k', hn, hat, htaken, hval, hbuf⟩ := h.at_.step hwf hw hreqs hk h.val h.buf h.reF h.taken hf hstay
    rw [hnot, if_neg Bool.false_ne_true] at hcb
    have hoff : (s.step cfg i).core.offset.toNat =
        s.core.offset.toNat + (s.core.coreBufferCe (s.coreIn i)).toNat ∧
        s.core.offset.toNat + (s.core.coreBufferCe (s.coreIn i)).toNat ≤ n ∧
        s.core.offset.toNat + (s.core.coreBufferCe (s.coreIn i)).toNat < r.words := by
      have hlt := h.offset_lt
      have hle' := h.offset_le
      cases hc' : s.core.coreBufferCe (s.coreIn i) with
      | true =>
          have hne : s.core.offset.toNat + 1 ≠ r.words := fun heq => hlast ⟨hc', heq⟩
          have hltn := (hwritten hc').2.1
          rw [hc', if_pos rfl] at hoffset
          rw [hoffset, Counter.toNat_succ (by omega), Bool.toNat_true]
          omega
      | false =>
          rw [hc', if_neg Bool.false_ne_true] at hoffset
          rw [hoffset, Bool.toNat_false]
          omega
    refine .storing hreqs hw ⟨hk', hat, hval, hbuf, hreF', hcb, ?_, ?_, fun hl => ?_, fun hl => ?_, htaken, hsent, ?_, ?_⟩
    · rw [hoff.1]
      exact hoff.2.1.trans hn
    · rw [hoff.1]
      exact hoff.2.2
    · have hl' : s.manager.lockStatus = false := by
        rw [← Bool.not_eq_true]
        exact fun ht => by rw [hkeep ht] at hl; cases hl
      have hc' : s.core.coreBufferCe (s.coreIn i) = false := by
        rw [← Bool.not_eq_true]
        exact fun ht => by rw [(hwritten ht).1] at hl'; cases hl'
      rw [hoff.1, h.asking hl', hc']
      rfl
    · exact hw ▸ hgranted hl
    · omega
    · rw [hoff.1]
      cases hc' : s.core.coreBufferCe (s.coreIn i) with
      | true => exact (hwritten hc').2.2.2
      | false => rw [memNext_kept (hwrites.trans hc'), h.mem_eq, Bool.toNat_false, Nat.add_zero]

theorem lock_off (hc : s.Coherent cfg S mem) (hs : s.core.state ≠ .inHeader1)
    (hcb : s.core.cbState = .idle ∨ s.core.cbState = .unlock)
    (hrelease : s.manager.lockStatus = true → s.core.cbState = .unlock ∧ s.manager.state = .lock) :
    (s.step cfg i).manager.lockStatus = false ∧ s.locks i = false ∧
      ((s.step cfg i).core.cbState = .idle ∨ (s.step cfg i).core.cbState = .unlock) := by
  cases hl : s.manager.lockStatus with
  | false =>
      have hlocks := not_locks (acquire_of_cb (i := i) hcb hs)
      exact ⟨(hc.unlocked_step hl).1.trans hlocks, hlocks, .inl (cb_of_cb hcb hs hl)⟩
  | true =>
      obtain ⟨hcb', hstate⟩ := hrelease hl
      obtain ⟨hlocks, -, -, -, hoff⟩ := hc.locked_step (i := i) hl
      refine ⟨hoff (by rw [Core.cacheLockRelease, hcb']; rfl) hstate, hlocks, .inr ?_⟩
      change s.core.cbStateNext (s.coreIn i) = _
      rw [Core.cbStateNext, hcb']
      exact if_pos hl

theorem respHeader_eq (hk : r.Known s.core) (hcomplete : r.Complete s.core) :
    respHeader s.core.chipid s.core.srcx s.core.srcy s.core.msgType s.core.mshr = r.respHeader := by
  rw [hcomplete.chipid, hcomplete.srcx, hcomplete.srcy, hk.msgType, hk.mshr, Request.respHeader]

theorem Phase.step_stored (hreqs : reqs = done ++ r :: rest) (hw : r.wr = true)
    (h : Stored c₀ done r mem s) (hc : s.Coherent cfg S mem) : Phase c₀ reqs (s.memNext mem i) (s.step cfg i) := by
  have hs := h.state
  have hce := ce_of_cb (i := i) h.cb
  obtain ⟨hlock, hlocks, hcb⟩ := lock_off (i := i) hc (by simp [hs]) h.cb h.release
  have ha : s.core.accepted (s.coreIn i) = none := by
    rw [Core.accepted, Core.bridgeSplitterRdy, hs, if_neg Bool.false_ne_true]
  have hmem : s.memNext mem i = blocksAfter c₀ (done ++ [r]) := by rw [memNext_of_ce hce, h.mem_eq]
  have htaken : (s.step cfg i).taken = done.flatMap Request.packet ++ r.packet := by rw [taken_none ha, h.taken]
  have hlocked : (s.step cfg i).locked = done.length + 1 := by rw [locked_kept hlocks, h.locked]
  have hpayload : respPayload s.core.msgType = 0 := by
    rw [h.known.msgType]
    exact if_pos hw
  have hstate : (s.step cfg i).core.state = s.core.stateNext (s.coreIn i) := rfl
  have hsent : (s.step cfg i).sent = s.sent ++ if s.core.bridgeSplitterGo (s.coreIn i) then [s.core.bridgeSplitterData] else [] := rfl
  rw [Core.stateNext, hs] at hstate
  dsimp only at hstate
  cases hgo : s.core.bridgeSplitterGo (s.coreIn i) with
  | true =>
      rw [hgo, if_pos rfl, if_pos hpayload] at hstate
      rw [hgo, if_pos rfl, Core.bridgeSplitterData, hs] at hsent
      have hreqs' : reqs = (done ++ [r]) ++ rest := by rw [hreqs, List.append_assoc]; rfl
      refine .idle hreqs' hstate ⟨hlock, reF_of_ce hce, hcb, ?_, ?_, ?_, hmem⟩
      · rw [htaken, List.flatMap_append, List.flatMap_singleton]
      · rw [hsent, respHeader_eq h.known h.complete, h.sent, responses_append, Request.response, hw, if_pos rfl]
      · rw [hlocked, List.length_append, List.length_singleton]
  | false =>
      rw [hgo, if_neg Bool.false_ne_true] at hstate
      rw [hgo, if_neg Bool.false_ne_true, List.append_nil, h.sent] at hsent
      refine .stored hreqs hw ⟨known_step h.known (by simp [hs]) (by simp [hs]), complete_step cfg i h.complete (by simp [hs]),
        hstate, reF_of_ce hce, hcb, fun hl => ?_, htaken, hsent, hlocked, hmem⟩
      rw [hlock] at hl
      cases hl

/-- The words that the buffer gives out to a load, after a cycle. -/
theorem Reading.step {l : Nat} (hwf : r.WellFormed) (hw : r.wr = false) (hk : r.Known s.core) (h : Reading r s l)
    (hc : s.Coherent cfg S mem) (hs : s.core.state ≠ .idle ∧ s.core.state ≠ .inHeader1 ∧ s.core.state ≠ .inData)
    (hval : ∀ j, s.core.msgDataVal j = true →
      j.toNat < r.words ∧ s.core.msgDataBuf j = mem r.addr.block (r.columnAt j))
    (hreF : s.core.cacheReF = true → s.core.offsetF.toNat < r.words ∧
      s.bramDout = mem r.addr.block (r.columnAt s.core.offsetF)) :
    s.memNext mem i = mem ∧
    (∀ j, (s.step cfg i).core.msgDataVal j = true →
      j.toNat < r.words ∧ (s.step cfg i).core.msgDataBuf j = mem r.addr.block (r.columnAt j)) ∧
    ((s.step cfg i).core.cacheReF = true → (s.step cfg i).core.offsetF.toNat < r.words ∧
      (s.step cfg i).bramDout = mem r.addr.block (r.columnAt (s.step cfg i).core.offsetF)) ∧
    ∃ l', Reading r (s.step cfg i) l' ∧ (s.step cfg i).locked + l = s.locked + l' := by
  have hmask : s.core.mask = r.mask := by
    rw [Core.mask, hk.msgType, hk.dataSz, Request.mask]
  have hwords := Request.mask_toNat hwf hw
  have hle := Request.words_le hwf
  -- the words that have come, with the one that the buffer shows now
  have hnew (j : BitVec 3) : (s.step cfg i).core.msgDataVal j = true →
      s.core.msgDataVal j = true ∨ s.core.cacheReF = true ∧ j = s.core.offsetF := by
    intro hj
    cases hre : s.core.cacheReF with
    | true =>
        have hstep : (s.step cfg i).core.msgDataVal = Function.update s.core.msgDataVal s.core.offsetF true := by
          simp [Bridge.step, Core.step, Core.dataWrite, hs.2.2, hre, setAt_eq]
        rw [hstep] at hj
        by_cases he : j = s.core.offsetF
        · exact .inr ⟨rfl, he⟩
        · rw [Function.update_of_ne he] at hj
          exact .inl hj
    | false =>
        have hnone : s.core.dataWrite (s.coreIn i) = none := by simp [Core.dataWrite, hs.2.2, hre]
        rw [(data_val_kept cfg hnone hs.1).1] at hj
        exact .inl hj
  have hval' (j : BitVec 3) (hj : (s.step cfg i).core.msgDataVal j = true) :
      j.toNat < r.words ∧ (s.step cfg i).core.msgDataBuf j = mem r.addr.block (r.columnAt j) := by
    cases hre : s.core.cacheReF with
    | true =>
        have hstep : (s.step cfg i).core.msgDataBuf = Function.update s.core.msgDataBuf s.core.offsetF s.bramDout := by
          simp [Bridge.step, Core.step, Core.dataWrite, hs.2.2, hre, coreIn, setAt_eq]
        rw [hstep]
        by_cases he : j = s.core.offsetF
        · rw [he, Function.update_self]
          exact hreF hre
        · rw [Function.update_of_ne he]
          exact hval j ((hnew j hj).resolve_right fun h => he h.2)
    | false =>
        have hnone : s.core.dataWrite (s.coreIn i) = none := by simp [Core.dataWrite, hs.2.2, hre]
        rw [(data_val_kept cfg hnone hs.1).2]
        exact hval j ((hnew j hj).resolve_right fun h => by simp [hre] at h)
  cases h with
  | asking hcb hl hoffset hnone hre =>
      have hce : s.core.coreBufferCe (s.coreIn i) = false := by
        rw [Core.coreBufferCe, hcb]
        change (s.manager.lockStatus && _) = false
        rw [hl, Bool.false_and]
      have hreF' : (s.step cfg i).core.cacheReF = false := reF_of_ce hce
      have hoffset' : (s.step cfg i).core.offset = 0 := by
        change s.core.offsetNext (s.coreIn i) = 0
        rw [Core.offsetNext, hcb, hce, hoffset]
        rfl
      have hcb' : (s.step cfg i).core.cbState = .cache2buffer := by
        change s.core.cbStateNext (s.coreIn i) = _
        rw [Core.cbStateNext, hcb, hce]
        dsimp only
        rw [Bool.and_false, if_neg Bool.false_ne_true]
      have hval0 (j : BitVec 3) : (s.step cfg i).core.msgDataVal j = false := by
        rw [← Bool.not_eq_true]
        intro hj
        rcases hnew j hj with hj | ⟨hre', -⟩
        · rw [hnone j] at hj
          cases hj
        · rw [hre] at hre'
          cases hre'
      obtain ⟨hgranted, -, hlocked⟩ := grant_step (i := i) hc hk hs.2.1 (by rw [Core.cacheLockRelease, hcb]; rfl)
        fun hl' => by simp [hl] at hl'
      rw [hl] at hlocked
      refine ⟨memNext_of_ce hce, hval', fun hre' => by simp [hreF'] at hre', _, ?_, hlocked⟩
      cases hl' : (s.step cfg i).manager.lockStatus with
      | false => exact .asking hcb' hl' hoffset' hval0 hreF'
      | true =>
          refine .reading hcb' hl' (hgranted hl').1 ?_ (fun j hj => ?_) fun hre' => ?_
          · rw [hoffset']
            exact Request.words_pos
          · rw [hval0 j] at hj
            cases hj
          · rw [hreF'] at hre'
            cases hre'
  | reading hcb hl hblock hoffset hbelow hbelowF =>
      have hrelease : s.core.cacheLockRelease = false := by rw [Core.cacheLockRelease, hcb]; rfl
      obtain ⟨hlocks, haddr, -, hkeep, -⟩ := hc.locked_step (i := i) hl
      have hl' := hkeep hrelease
      have hwrites : s.coreWrites i = false := by
        rw [coreWrites, Core.coreBufferWr, hcb]
        exact Bool.and_false _
      have hreF' : (s.step cfg i).core.cacheReF = s.core.coreBufferCe (s.coreIn i) := by
        change (s.core.coreBufferCe (s.coreIn i) && !s.core.coreBufferWr) = _
        rw [Core.coreBufferWr, hcb]
        exact Bool.and_true _
      have hcb' : (s.step cfg i).core.cbState =
          if s.core.offset == r.mask && s.core.coreBufferCe (s.coreIn i) then .unlock else .cache2buffer := by
        change s.core.cbStateNext (s.coreIn i) = _
        rw [Core.cbStateNext, hcb, hmask]
      have hoffset' : (s.step cfg i).core.offset =
          if s.core.coreBufferCe (s.coreIn i) then s.core.offset + 1 else s.core.offset := by
        change s.core.offsetNext (s.coreIn i) = _
        rw [Core.offsetNext, hcb]
      have hbelow' (j : BitVec 3) (hj : (s.step cfg i).core.msgDataVal j = true) : j.toNat < s.core.offset.toNat := by
        rcases hnew j hj with hj | ⟨hre, rfl⟩
        · exact hbelow j hj
        · exact hbelowF hre
      have hmem : s.memNext mem i = mem := memNext_kept hwrites
      have hdout : s.core.coreBufferCe (s.coreIn i) = true →
          (s.step cfg i).bramDout = mem r.addr.block (r.columnAt s.core.offset) := by
        intro hce
        have hreads : s.coreReads i = true := by
          rw [coreReads, hce, Core.coreBufferWr, hcb]
          rfl
        change (if s.coreReads i then _ else _) = _
        rw [if_pos hreads, coreEntry_eq, hc.buffer_eq (state_of_ce hce), hblock, coreColumn_eq hk]
      refine ⟨hmem, hval', fun hre => ?_, 1, ?_, by rw [locked_kept hlocks]⟩
      · exact ⟨hoffset, hdout (hreF'.symm.trans hre)⟩
      · cases hce : s.core.coreBufferCe (s.coreIn i) with
        | false =>
            rw [hce, Bool.and_false, if_neg Bool.false_ne_true] at hcb'
            rw [hce, if_neg Bool.false_ne_true] at hoffset'
            refine .reading hcb' hl' (haddr.trans hblock) ?_ ?_ fun hre => ?_
            · rw [hoffset']
              exact hoffset
            · rw [hoffset']
              exact hbelow'
            · rw [hreF', hce] at hre
              cases hre
        | true =>
            by_cases hlast : s.core.offset = r.mask
            · rw [hce, hlast, beq_self_eq_true, Bool.and_true, if_pos rfl] at hcb'
              refine .read hcb' hl' (Coherent.state_step (state_of_ce hce) hrelease) fun j hj => ?_
              have := hbelow' j hj
              rw [hlast] at this
              omega
            · have hne : s.core.offset.toNat ≠ r.mask.toNat := fun he => hlast (BitVec.eq_of_toNat_eq he)
              rw [hce, beq_eq_false_iff_ne.mpr hlast, Bool.false_and, if_neg Bool.false_ne_true] at hcb'
              rw [hce, if_pos rfl] at hoffset'
              have hnat : (s.step cfg i).core.offset.toNat = s.core.offset.toNat + 1 := by
                rw [hoffset', Counter.toNat_succ (by omega)]
              refine .reading hcb' hl' (haddr.trans hblock) (by omega) (fun j hj => ?_) fun _ => ?_
              · have := hbelow' j hj
                omega
              · change s.core.offset.toNat < _
                omega
  | read hcb hl hstate hbelow =>
      have hce := ce_of_cb (i := i) (.inr hcb)
      have hreF' : (s.step cfg i).core.cacheReF = false := reF_of_ce hce
      obtain ⟨hlock, hlocks, hcb'⟩ := lock_off (i := i) hc hs.2.1 (.inr hcb) fun _ => ⟨hcb, hstate⟩
      exact ⟨memNext_of_ce hce, hval', fun hre => by simp [hreF'] at hre, 1, .released hcb' hlock hreF',
        by rw [locked_kept hlocks]⟩
  | released hcb hl hre =>
      have hce := ce_of_cb (i := i) hcb
      have hreF' : (s.step cfg i).core.cacheReF = false := reF_of_ce hce
      obtain ⟨hlock, hlocks, hcb'⟩ := lock_off (i := i) hc hs.2.1 hcb fun hl' => by simp [hl] at hl'
      exact ⟨memNext_of_ce hce, hval', fun hre => by simp [hreF'] at hre, 1, .released hcb' hlock hreF',
        by rw [locked_kept hlocks]⟩

theorem response_succ (hw : r.wr = false) (m : Mem) {j : Nat} (hj : j < 8) : (r.response m).take (j + 1 + 1) =
    (r.response m).take (j + 1) ++ [Request.wordAt m (BitVec.ofNat 40 (r.addr.toNat + 8 * (j % r.words)))] := by
  have hlen : (r.response m).length = 9 := by simp [Request.response, hw]
  rw [List.take_succ_eq_append_getElem (by omega)]
  congr 2
  simp [Request.response, hw]

theorem outData_eq (hwf : r.WellFormed) (hw : r.wr = false) (hk : r.Known s.core) (hs : s.core.state = .outData)
    (hcounter : s.core.counter.toNat < 8) (hval : s.core.msgDataVal s.core.outOffset = true →
      s.core.msgDataBuf s.core.outOffset = mem r.addr.block (r.columnAt s.core.outOffset))
    (hgo : s.core.bridgeSplitterGo (s.coreIn i) = true) :
    s.core.bridgeSplitterData =
      Request.wordAt (bytes mem) (BitVec.ofNat 40 (r.addr.toNat + 8 * (s.core.counter.toNat % r.words))) := by
  have hmask : s.core.mask = r.mask := by
    rw [Core.mask, hk.msgType, hk.dataSz, Request.mask]
  have hout : s.core.outOffset.toNat = s.core.counter.toNat % r.words := by
    rw [Core.outOffset, hmask, Request.and_mask hwf hw, BitVec.toNat_setWidth]
    congr 1
    omega
  have hv : s.core.msgDataVal s.core.outOffset = true := by
    have := ((Bool.and_eq_true _ _).mp hgo).2
    rwa [Core.bridgeSplitterVal, hs] at this
  rw [Core.bridgeSplitterData, hs]
  dsimp only
  rw [hval hv, ← hout, Request.wordAt_offset hwf]
  rw [hout]
  exact Nat.mod_lt _ Request.words_pos

/-- The last word of a load has come only after the lock was given back. -/
theorem Reading.released_of_val {l : Nat} (hwf : r.WellFormed) (hw : r.wr = false) (h : Reading r s l)
    (hv : s.core.msgDataVal r.mask = true) :
    (s.core.cbState = .idle ∨ s.core.cbState = .unlock) ∧ s.manager.lockStatus = false ∧ l = 1 := by
  have hwords := Request.mask_toNat hwf hw
  cases h with
  | asking _ _ _ hnone =>
      rw [hnone] at hv
      cases hv
  | reading _ _ _ hoffset hbelow =>
      have := hbelow _ hv
      omega
  | read _ _ _ hbelow =>
      have := hbelow _ hv
      omega
  | released hcb hl => exact ⟨hcb, hl, rfl⟩

theorem Phase.step_loading {l : Nat} {out : List Word} (hwf : r.WellFormed) (hreqs : reqs = done ++ r :: rest)
    (hw : r.wr = false) (h : Loading c₀ done r k out l mem s) (hc : s.Coherent cfg S mem) (hf : s.Feeds cfg reqs i)
    (hbytes : bytes mem = memory (bytes c₀) done) : Phase c₀ reqs (s.memNext mem i) (s.step cfg i) := by
  have hk := h.known
  have hwr : s.core.wr = false := by
    rw [Core.wr, hk.msgType]
    exact hw
  have hrd : s.core.rd = true := by
    rw [Core.rd, hk.msgType]
    exact hwf.kind.resolve_left (by rw [show isWr r.msgType = false from hw]; exact Bool.false_ne_true)
  have hi : s.core.state ≠ .idle ∧ s.core.state ≠ .inHeader1 ∧ s.core.state ≠ .inData := by
    cases h.at_ with
    | inHeader2 hs | waiting hs | outHeader hs | outData hs => simp [hs]
  have hk' : r.Known (s.step cfg i).core := known_step hk hi.1 hi.2.1
  obtain ⟨hmem, hval, hreF, l', hreading, hlocked⟩ := h.reading.step (i := i) hwf hw hk hc hi h.val h.reF
  rw [hmem]
  have hlocked' : (s.step cfg i).locked = done.length + l' := by
    rw [h.locked] at hlocked
    omega
  have hstate : (s.step cfg i).core.state = s.core.stateNext (s.coreIn i) := rfl
  have hsent : (s.step cfg i).sent = s.sent ++ if s.core.bridgeSplitterGo (s.coreIn i) then [s.core.bridgeSplitterData] else [] := rfl
  rw [h.sent] at hsent
  -- the load goes on
  have hnext {k' : Nat} {out' : List Word} (hat : LoadAt r (bytes mem) (s.step cfg i).core k' out')
      (htaken : (s.step cfg i).taken = done.flatMap Request.packet ++ r.packet.take k')
      (hsent' : (s.step cfg i).sent = responses (bytes c₀) done ++ out') : Phase c₀ reqs mem (s.step cfg i) :=
    .loading hreqs hw ⟨hk', hat, hval, hreF, hreading, htaken, hsent', hlocked', h.mem_eq⟩
  have hpacket : 3 ≤ r.packet.length := by simp [Request.packet]
  have hat := h.at_
  cases hat with
  | inHeader2 hs =>
      have hgo : s.core.bridgeSplitterGo (s.coreIn i) = false := by
        rw [Core.bridgeSplitterGo, Core.bridgeSplitterVal, hs]
        exact Bool.and_false _
      rw [hgo, if_neg Bool.false_ne_true, List.append_nil] at hsent
      rw [Core.stateNext, hs] at hstate
      dsimp only at hstate
      cases ha : s.core.accepted (s.coreIn i) with
      | none =>
          rw [Core.splitterBridgeGo, ha, Option.isSome_none, if_neg Bool.false_ne_true] at hstate
          exact hnext (.inHeader2 hstate) (by rw [taken_none ha, h.taken]) hsent
      | some w =>
          obtain ⟨hw', htaken⟩ := taken_some hf hreqs h.taken (by omega) ha
          change w = r.header3 at hw'
          have hgo' : s.core.splitterBridgeGo (s.coreIn i) = true := by rw [Core.splitterBridgeGo, ha, Option.isSome_some]
          have hdata : s.core.splitterBridgeData (s.coreIn i) = r.header3 := by
            rw [Core.splitterBridgeData, ha, Option.getD_some, hw']
          have hcomplete : r.Complete (s.step cfg i).core := complete_of_header3 hs hgo' hdata
          rw [hgo', if_pos rfl, hwr, if_neg Bool.false_ne_true] at hstate
          cases hg : Core.granted (s.coreIn i) with
          | true =>
              rw [hg, if_pos rfl] at hstate
              exact hnext (.outHeader hstate hcomplete) htaken hsent
          | false =>
              rw [hg, if_neg Bool.false_ne_true] at hstate
              exact hnext (.waiting hstate hcomplete) htaken hsent
  | waiting hs hcomplete =>
      have hgo : s.core.bridgeSplitterGo (s.coreIn i) = false := by
        rw [Core.bridgeSplitterGo, Core.bridgeSplitterVal, hs]
        exact Bool.and_false _
      rw [hgo, if_neg Bool.false_ne_true, List.append_nil] at hsent
      have ha : s.core.accepted (s.coreIn i) = none := by
        rw [Core.accepted, Core.bridgeSplitterRdy, hs, if_neg Bool.false_ne_true]
      have hcomplete' := complete_step cfg i hcomplete (by simp [hs])
      have htaken : (s.step cfg i).taken = done.flatMap Request.packet ++ r.packet.take 3 := by rw [taken_none ha, h.taken]
      rw [Core.stateNext, hs] at hstate
      dsimp only at hstate
      rw [hrd, Bool.or_true, Bool.and_true] at hstate
      cases hg : Core.granted (s.coreIn i) with
      | true =>
          rw [hg, if_pos rfl] at hstate
          exact hnext (.outHeader hstate hcomplete') htaken hsent
      | false =>
          rw [hg, if_neg Bool.false_ne_true] at hstate
          exact hnext (.waiting hstate hcomplete') htaken hsent
  | outHeader hs hcomplete =>
      have ha : s.core.accepted (s.coreIn i) = none := by
        rw [Core.accepted, Core.bridgeSplitterRdy, hs, if_neg Bool.false_ne_true]
      have htaken : (s.step cfg i).taken = done.flatMap Request.packet ++ r.packet.take 3 := by rw [taken_none ha, h.taken]
      have hpayload : respPayload s.core.msgType ≠ 0 := by
        rw [hk.msgType, respPayload, if_neg (by rw [show isWr r.msgType = false from hw]; exact Bool.false_ne_true)]
        decide
      rw [Core.stateNext, hs] at hstate
      dsimp only at hstate
      cases hgo : s.core.bridgeSplitterGo (s.coreIn i) with
      | true =>
          rw [hgo, if_pos rfl, if_neg hpayload] at hstate
          have hcounter : (s.step cfg i).core.counter = 0 := by
            change s.core.counterNext (s.coreIn i) = 0
            rw [Core.counterNext, hs]
          have hat : LoadAt r (bytes mem) (s.step cfg i).core 3
              ((r.response (bytes mem)).take ((s.step cfg i).core.counter.toNat + 1)) :=
            .outData hstate (by rw [hcounter]; decide)
          refine hnext hat htaken ?_
          rw [hsent, hgo, if_pos rfl, Core.bridgeSplitterData, hs]
          dsimp only
          rw [respHeader_eq hk hcomplete, hcounter, List.append_nil]
          rfl
      | false =>
          rw [hgo, if_neg Bool.false_ne_true] at hstate
          rw [hgo, if_neg Bool.false_ne_true, List.append_nil] at hsent
          exact hnext (.outHeader hstate (complete_step cfg i hcomplete (by simp [hs]))) htaken hsent
  | outData hs hcounter =>
      have ha : s.core.accepted (s.coreIn i) = none := by
        rw [Core.accepted, Core.bridgeSplitterRdy, hs, if_neg Bool.false_ne_true]
      have htaken : (s.step cfg i).taken = done.flatMap Request.packet ++ r.packet.take 3 := by rw [taken_none ha, h.taken]
      have hpayload : (respPayload s.core.msgType).toNat = 8 := by
        rw [hk.msgType, respPayload, if_neg (by rw [show isWr r.msgType = false from hw]; exact Bool.false_ne_true)]
        rfl
      have hcounterNext : (s.step cfg i).core.counter = s.core.counterNext (s.coreIn i) := rfl
      rw [Core.counterNext, hs] at hcounterNext
      dsimp only at hcounterNext
      rw [Core.stateNext, hs] at hstate
      dsimp only at hstate
      rw [hpayload] at hstate
      cases hgo : s.core.bridgeSplitterGo (s.coreIn i) with
      | true =>
          rw [hgo, if_pos rfl, outData_eq hwf hw hk hs hcounter (fun hv => (h.val _ hv).2) hgo, List.append_assoc,
            ← response_succ hw _ hcounter] at hsent
          rw [hgo, if_pos rfl] at hcounterNext
          have hnat : (s.step cfg i).core.counter.toNat = s.core.counter.toNat + 1 := by
            rw [hcounterNext, Counter.toNat_succ (by omega)]
          by_cases hlast : s.core.counter.toNat + 1 = 8
          · rw [hgo, hlast, beq_self_eq_true, Bool.and_true, if_pos rfl] at hstate
            have hv : s.core.msgDataVal r.mask = true := by
              have hmask : s.core.mask = r.mask := by
                rw [Core.mask, hk.msgType, hk.dataSz, Request.mask]
              have hcount : s.core.counter.setWidth 3 = BitVec.allOnes 3 := by
                apply BitVec.eq_of_toNat_eq
                rw [BitVec.toNat_setWidth, show s.core.counter.toNat = 7 by omega]
                rfl
              have := ((Bool.and_eq_true _ _).mp hgo).2
              rw [Core.bridgeSplitterVal, hs] at this
              dsimp only at this
              rwa [Core.outOffset, hcount, BitVec.allOnes_and, hmask] at this
            obtain ⟨hcb, hl, hl1⟩ := h.reading.released_of_val hwf hw hv
            have hce := ce_of_cb (i := i) hcb
            obtain ⟨hlock, hlocks, hcb'⟩ := lock_off (i := i) hc hi.2.1 hcb fun hl' => by simp [hl] at hl'
            have hreqs' : reqs = (done ++ [r]) ++ rest := by rw [hreqs, List.append_assoc]; rfl
            have hdata : r.data = [] := List.eq_nil_of_length_eq_zero (by rw [hwf.data, hw, if_neg Bool.false_ne_true])
            refine .idle hreqs' hstate ⟨hlock, reF_of_ce hce, hcb', ?_, ?_, ?_, ?_⟩
            · rw [htaken, List.flatMap_append, List.flatMap_singleton, List.take_of_length_le]
              rw [Request.packet, hdata]
              rfl
            · rw [hsent, hbytes, responses_append, hlast, List.take_of_length_le]
              simp [Request.response, hw]
            · rw [locked_kept hlocks, h.locked, hl1, List.length_append, List.length_singleton]
            · rw [blocksAfter_append, hw, if_neg Bool.false_ne_true, h.mem_eq]
          · rw [hgo, beq_eq_false_iff_ne.mpr hlast, Bool.and_false, if_neg Bool.false_ne_true] at hstate
            have hat : LoadAt r (bytes mem) (s.step cfg i).core 3
                ((r.response (bytes mem)).take ((s.step cfg i).core.counter.toNat + 1)) :=
              .outData hstate (by omega)
            exact hnext hat htaken (by rw [hsent, hnat])
      | false =>
          rw [hgo, Bool.false_and, if_neg Bool.false_ne_true] at hstate
          rw [hgo, if_neg Bool.false_ne_true, List.append_nil] at hsent
          rw [hgo, if_neg Bool.false_ne_true] at hcounterNext
          have hat : LoadAt r (bytes mem) (s.step cfg i).core 3
              ((r.response (bytes mem)).take ((s.step cfg i).core.counter.toNat + 1)) :=
            .outData hstate (by rw [hcounterNext]; exact hcounter)
          exact hnext hat htaken (by rw [hsent, hcounterNext])

end Bridge

end OpenPiton.Sd
