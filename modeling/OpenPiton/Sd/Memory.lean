import OpenPiton.Sd.Serving

namespace OpenPiton.Sd

open L15 (Word)

theorem responses_prefix (m : Mem) (done rest : List Request) : responses m done <+: responses m (done ++ rest) := by
  induction done generalizing m with
  | nil => exact List.nil_prefix
  | cons r done ih => exact (List.prefix_append_right_inj _).mpr (ih (r.apply m))

theorem response_prefix {m : Mem} {done rest : List Request} {r : Request} {l : List Word}
    (h : l <+: r.response (memory m done)) : responses m done ++ l <+: responses m (done ++ r :: rest) := by
  have hpre := responses_prefix m (done ++ [r]) rest
  rw [responses_append, List.append_assoc] at hpre
  exact ((List.prefix_append_right_inj _).mpr h).trans hpre

namespace Bridge

/-- The blocks that requests address. -/
def blocks (reqs : List Request) : Set BlockNo := {b | ∃ r ∈ reqs, r.addr.block = b}

variable {cfg : Cfg} {card : BitVec 32 → Block} {c₀ mem : BlockNo → Block} {reqs : List Request} {s : Bridge} {i : Input}

theorem mem_blocks {done rest : List Request} {r : Request} (h : reqs = done ++ r :: rest) : r ∈ reqs ∧ r.addr.block ∈ blocks reqs := by
  have hr : r ∈ reqs := by simp [h]
  exact ⟨hr, r, hr, rfl⟩

theorem Phase.step (hwf : ∀ r ∈ reqs, r.WellFormed) {S : Set BlockNo} (h : Phase c₀ reqs mem s) (hc : s.Coherent cfg S mem)
    (hf : s.Feeds cfg reqs i) : Phase c₀ reqs (s.memNext mem i) (s.step cfg i) := by
  cases h with
  | rst hreqs hs h => exact step_rst hreqs hs h hc
  | idle hreqs hs h => exact step_idle hreqs hs h hc hf
  | begun hreqs h => exact step_begun (hwf _ (mem_blocks hreqs).1) hreqs h hc hf
  | storing hreqs hw h => exact step_storing (hwf _ (mem_blocks hreqs).1) hreqs hw h hc hf
  | stored hreqs hw h => exact step_stored hreqs hw h hc
  | @loading done rest r k l out hreqs hw h =>
      refine step_loading (hwf _ (mem_blocks hreqs).1) hreqs hw h hc hf ?_
      rw [h.mem_eq]
      exact bytes_blocksAfter c₀ fun r hr => hwf r (by rw [hreqs]; exact List.mem_append_left _ hr)

/-- The blocks of the card as they are at first. -/
def cardBlocks (cfg : Cfg) (card : BitVec 32 → Block) : BlockNo → Block := fun b => card (sdAddr cfg.isHcxc b)

theorem Init.phase (h : s.Init card) (reqs : List Request) : Phase (cardBlocks cfg card) reqs (cardBlocks cfg card) s := by
  obtain ⟨addr, entry, buffer, dout, rfl⟩ := h
  exact .rst (List.nil_append reqs).symm rfl ⟨rfl, rfl, .inl rfl, rfl, rfl, rfl, rfl⟩

theorem Phase.sent_prefix (hwf : ∀ r ∈ reqs, r.WellFormed) (h : Phase c₀ reqs mem s) :
    s.sent <+: responses (bytes c₀) reqs := by
  cases h with
  | rst hreqs _ h | idle hreqs _ h | begun hreqs h | storing hreqs _ h | stored hreqs _ h =>
      rw [h.sent, hreqs]
      exact responses_prefix _ _ _
  | @loading done rest r k l out hreqs hw h =>
      have hbytes : bytes mem = memory (bytes c₀) done := by
        rw [h.mem_eq]
        exact bytes_blocksAfter c₀ fun r hr => hwf r (by rw [hreqs]; exact List.mem_append_left _ hr)
      rw [h.sent, hreqs]
      refine response_prefix ?_
      rw [← hbytes]
      cases h.at_ with
      | inHeader2 | waiting | outHeader => exact List.nil_prefix
      | outData => exact List.take_prefix _ _

/-- A cycle without a flit, in which the card answers what it was asked. -/
def idleInput : Input := { answer := some true }

/-- The flits of a request, and some cycles to serve it. -/
def feed (n : Nat) (r : Request) : List Input :=
  (r.packet.map fun word => { idleInput with flit := some word }) ++ List.replicate n idleInput

/-- The state after reset, with zeros in the card and in the registers without a reset. -/
def start : Bridge :=
  { manager := { addrLkpIndexedF := fun _ => 0, entryLkpIndexedF := fun _ => 0 }, buffer := fun _ _ => 0, bramDout := 0,
    card := fun _ _ => 0 }

/-- `NC_STORE_REQ` and `NC_LOAD_REQ` of eight bytes, at the start of a block. -/
def ncStore (block : Nat) (word : Word) : Request :=
  ⟨BitVec.ofNat 64 (3 <<< 22 ||| 15 <<< 14), BitVec.ofNat 64 (block <<< 25 ||| 4 <<< 8), 0, [word]⟩

def ncLoad (block : Nat) : Request :=
  ⟨BitVec.ofNat 64 (2 <<< 22 ||| 14 <<< 14), BitVec.ofNat 64 (block <<< 25 ||| 4 <<< 8), 0, []⟩

end Bridge

end OpenPiton.Sd
