import OpenPiton.Coherence.Moves

namespace OpenPiton.Coherence

open L2 (Block Request Noc2 Noc3 MsgType CacheType FwdType)
open L15 (Ctl FetchState Mesi MshrType Reqtype decoder)

variable {n : Nat}

/-! ## Answers -/

/-- The line after the answer that the MSHR waits for. -/
def Slot.filled (m : Slot) (ackState : Mesi) (fill : Block) (c : Copy) : Copy :=
  if m.control.nc then c
  else if m.control.atomic then ⟨ackState, fill, true⟩
  else if m.control.load then ⟨ackState, fill, c.lrsc⟩
  else ⟨ackState, m.merge (if m.state = .sm then c.data else fill), c.lrsc⟩

namespace Tile

variable {t : Tile} {a : Addr} {m : Slot} {mshrType : MshrType}

theorem dataAck_eq (hm : t.mshr a = some m) (hok : m.Ok) (hs : m.accepts .ncStore = false) (ht : mshrType ≠ .ifill)
    (ackState : Mesi) (data : List Block) :
    t.dataAck mshrType a ackState data =
      { t with
        copy := Function.update t.copy a (m.filled ackState (data.headD 0) (t.copy a))
        mshr := Function.update t.mshr a none } := by
  obtain ⟨type, ⟨size, threadid, way, nc, icache, load, atomic⟩, state, merge⟩ := m
  obtain ⟨hic, hty, hst⟩ := hok
  simp only [Slot.accepts] at hs hst hic hty
  subst hic
  cases nc <;> cases load <;> cases atomic <;> simp at hs hst hty <;> try rcases hst with rfl | rfl
  all_goals simp [dataAck, ht, hm, hty, Slot.entry, L15.Predecode.ackdtReqtype, decoder, L15.Decoder.ackdtLd,
    L15.Decoder.ackdtStIm, L15.Decoder.ackdtStSm, L15.Decoder.ackdtLr, Copy.next, Copy.mesiNext, Copy.dataNext, Copy.lrscNext,
    mshrNext, Slot.filled]

/-- Instructions come for the two sublines of a line of the L1I. -/
theorem instr_dataAck {ackState : Mesi} {data : List Block} {b : Addr} (hb : ¬(b.1 = a.1 ∧ b.2.toNat / 2 = a.2.toNat / 2)) :
    (t.dataAck .ifill a ackState data).instr b = t.instr b := by
  have hk : ∀ k : BitVec 2, (BitVec.ofNat 2 (2 * (k.toNat / 2))).toNat / 2 = k.toNat / 2 ∧
      (BitVec.ofNat 2 (2 * (k.toNat / 2) + 1)).toNat / 2 = k.toNat / 2 := by decide
  have h0 (k : BitVec 2) (h : k.toNat / 2 = a.2.toNat / 2) : b ≠ (a.1, k) := by
    rintro rfl
    exact hb ⟨rfl, h⟩
  have h1 := h0 _ (hk a.2).1
  have h2 := h0 _ (hk a.2).2
  simp only [dataAck, if_true, L2.sentSublines]
  rcases data with _ | ⟨d, _ | ⟨d', l⟩⟩ <;> simp [h1, h2]

theorem nodataAck_eq (ht : mshrType = .st) : t.nodataAck mshrType a = { t with mshr := Function.update t.mshr a none } := by
  simp [nodataAck, ht, decoder, mshrNext]

theorem nodataAck_eq_self (ht : mshrType ≠ .st) : t.nodataAck mshrType a = t := by
  simp [nodataAck, ht]

end Tile

/-! ## Forwards -/

/-- The data of a dirty line. -/
def Copy.dirty (c : Copy) : Option Block := if c.mesi = .m then some c.data else none

/-- The line after the pass of a forward. -/
def Copy.forwarded (c : Copy) (type : FwdType) : Copy where
  mesi := if type = .load then (if c.mesi.me then .s else c.mesi) else .i
  data := c.data
  lrsc := if c.mesi = .m then false else c.lrsc

def Slot.forwarded (m : Slot) (type : FwdType) : Slot :=
  if type ≠ .load ∧ m.type = .st ∧ m.state = .sm then { m with state := .im } else m

/-- The acknowledgement of a pass: the last one whatever there is, another one for a dirty line. -/
def fwdAckOf (type : FwdType) (sublineVector : BitVec 4) (k : BitVec 2) (c : Copy) : List Noc3 :=
  if L15.State.lastSubline sublineVector = k.toNat then [.fwdAck type k true c.dirty]
  else if c.mesi = .m then [.fwdAck type k false (some c.data)]
  else []

namespace Tile

variable {t : Tile} {type : FwdType} {tag : Nat} {v : BitVec 4}

theorem isLastDataInval_eq : ∀ v : BitVec 4, v ≠ 0 → ∀ fs ∈ [FetchState.normal, .inval2, .inval3, .inval4],
    L15.Predecode.isLastDataInval cfg fs v = decide (L15.State.lastSubline v = fs.subline) := by
  decide

theorem forwardPass_data (hv : v ≠ 0) {fs : FetchState} (hf : fs ∈ [FetchState.normal, .inval2, .inval3, .inval4]) :
    t.forwardPass type (fwdMsg type .data v) tag fs =
      ({ t with
          copy := Function.update t.copy (tag, BitVec.ofNat 2 fs.subline)
            ((t.copy (tag, BitVec.ofNat 2 fs.subline)).forwarded type)
          mshr := Function.update t.mshr (tag, BitVec.ofNat 2 fs.subline)
            ((t.mshr (tag, BitVec.ofNat 2 fs.subline)).map (Slot.forwarded · type)) },
        fwdAckOf type v (BitVec.ofNat 2 fs.subline) (t.copy (tag, BitVec.ofNat 2 fs.subline))) := by
  have hk : (BitVec.ofNat 2 fs.subline).toNat = fs.subline := by
    revert hf
    cases fs <;> decide
  have hlast : (fwdMsg type .data v).isLastInval cfg fs = decide (L15.State.lastSubline v = fs.subline) := by
    simpa [L15.Noc2Msg.isLastInval, fwdMsg] using isLastDataInval_eq v hv fs hf
  generalize BitVec.ofNat 2 fs.subline = k at hk ⊢
  have hkk : BitVec.ofNat 2 fs.subline = k := by rw [← hk]; simp
  have hp : cfg.parallelSrams = false := rfl
  have hi (x : Mesi) : (if x.mes = true then Mesi.i else x) = .i := by cases x <;> rfl
  have hd : (fwdMsg type .data v).icacheType = false := rfl
  have hvec (type : FwdType) : (fwdMsg type .data v).fwdSubcachelineVector = v := rfl
  have hr : (fwdMsg type .data v).passReqtype = if type = .load then .downgrade else .invalidation := by
    cases type <;> rfl
  simp only [forwardPass, hd, Bool.false_eq_true, if_false, hlast, hr, hkk]
  by_cases hl : L15.State.lastSubline v = fs.subline <;> by_cases hm : (t.copy (tag, k)).mesi = .m <;> cases type <;>
    simp [decoder, L15.Decoder.downgrade, L15.Decoder.invalidation, hp, hl, hm, hk, ack, hvec, fwdAckType, L15.Noc3Op.type,
      fwdAckOf, Copy.next, Copy.mesiNext, Copy.dataNext, Copy.lrscNext, Copy.forwarded, Copy.dirty, mshrNext, Slot.forwarded, hi]

theorem subline_cases (k : BitVec 2) : k = 0 ∨ k = 1 ∨ k = 2 ∨ k = 3 := by
  revert k
  decide

/-- A forward of data goes over all the sublines of its line. -/
theorem forward_data (hv : v ≠ 0) :
    t.forward type tag v .data =
      ({ t with
          copy := fun a => if a.1 = tag then (t.copy a).forwarded type else t.copy a
          mshr := fun a => if a.1 = tag then (t.mshr a).map (Slot.forwarded · type) else t.mshr a },
        ([0, 1, 2, 3] : List (BitVec 2)).flatMap fun k => fwdAckOf type v k (t.copy (tag, k))) := by
  have hpass : (fwdMsg type .data v).passes cfg = [.normal, .inval2, .inval3, .inval4] := by cases type <;> rfl
  have h0 (t : Tile) := @forwardPass_data t type tag v hv .normal (by simp)
  have h1 (t : Tile) := @forwardPass_data t type tag v hv .inval2 (by simp)
  have h2 (t : Tile) := @forwardPass_data t type tag v hv .inval3 (by simp)
  have h3 (t : Tile) := @forwardPass_data t type tag v hv .inval4 (by simp)
  simp only [forward, hpass, List.foldl_cons, List.foldl_nil, h0, h1, h2, h3, FetchState.subline]
  refine Prod.ext (Tile.ext ?_ rfl ?_) (by simp)
  · funext ⟨tag', k⟩
    by_cases ht : tag' = tag
    · subst ht
      rcases subline_cases k with rfl | rfl | rfl | rfl <;> simp
    · simp [ht]
  · funext ⟨tag', k⟩
    by_cases ht : tag' = tag
    · subst ht
      rcases subline_cases k with rfl | rfl | rfl | rfl <;> simp
    · simp [ht]

/-- One of instructions over the whole line at once. -/
theorem forward_instr :
    t.forward .inv tag (BitVec.allOnes 4) .ins =
      ({ t with instr := fun a => if a.1 = tag then none else t.instr a }, [.fwdAck .inv 2 true none]) := by
  have hpass : (fwdMsg .inv .ins (BitVec.allOnes 4)).passes cfg = [.normal, .icacheInval2] := rfl
  have hd : (fwdMsg .inv .ins (BitVec.allOnes 4)).icacheType = true := rfl
  have h0 : (fwdMsg .inv .ins (BitVec.allOnes 4)).isLastInval cfg .normal = false := by decide
  have h2 : (fwdMsg .inv .ins (BitVec.allOnes 4)).isLastInval cfg .icacheInval2 = true := by decide
  have hr : (fwdMsg .inv .ins (BitVec.allOnes 4)).passReqtype = .icacheInvalidation := rfl
  simp only [forward, hpass, List.foldl_cons, List.foldl_nil, forwardPass, hd, h0, h2, hr]
  refine Prod.ext (Tile.ext rfl ?_ rfl) (by simp [decoder, ack, fwdAckType, L15.Noc3Op.type])
  funext a
  obtain ⟨tag', k⟩ := a
  by_cases ht : tag' = tag
  · subst ht
    rcases subline_cases k with rfl | rfl | rfl | rfl <;> simp
  · simp [ht]

end Tile

end OpenPiton.Coherence
