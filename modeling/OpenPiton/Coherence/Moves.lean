import OpenPiton.Coherence.System

namespace OpenPiton.L2

variable {n : Nat}

namespace MsgType

/-- The requests that an MSHR of a load, a store or an atomic waits for; the second phase of an atomic answers nobody. -/
def demand : MsgType → Bool
  | .load | .ncLoad | .store | .ncStore | .lr | .cas | .casP1 | .atomic _ | .atomicP1 _ => true
  | _ => false

/-- The requests of the tiles. -/
def ofTile : MsgType → Bool
  | .load | .ncLoad | .store | .ncStore | .lr | .cas | .atomic _ | .wbguard | .rvcmo _ => true
  | _ => false

end MsgType

namespace Request

def addr (q : Request n) : Nat × BitVec 2 := (q.tag, q.subline)

/-- An MSHR of the line waits for the answer. -/
def asks (q : Request n) (a : Nat × BitVec 2) : Bool := q.type.demand && q.cacheType == .data && q.addr == a

def guards (q : Request n) (a : Nat × BitVec 2) : Bool := q.type == .wbguard && q.addr == a

end Request

end OpenPiton.L2

namespace OpenPiton.Coherence

open L2 (Block Request Noc2 Noc3 MsgType CacheType FwdType)
open L15 (Ctl FetchState Mesi MshrType Reqtype decoder)

variable {n : Nat}

namespace Slot

/-- The requests that the MSHR may stand for. -/
def accepts (m : Slot) : MsgType → Bool
  | .ncLoad => m.control.nc && m.control.load
  | .cas | .casP1 | .atomic _ | .atomicP1 _ => m.control.nc && !m.control.load && m.control.atomic
  | .ncStore => m.control.nc && !m.control.load && !m.control.atomic
  | .lr => !m.control.nc && m.control.atomic
  | .load => !m.control.nc && !m.control.atomic && m.control.load
  | .store => !m.control.nc && !m.control.atomic && !m.control.load
  | _ => false

/-- Instruction fills have no MSHR here, and only stores have states. -/
structure Ok (m : Slot) : Prop where
  icache : m.control.icache = false
  type : m.type = if m.control.load || m.control.atomic then .ld else .st
  store : m.state = .sm ∨ m.state = .im ↔ m.accepts .store = true

end Slot

/-- A request that an MSHR waits for. -/
structure Asks (src : Fin n) (a : Addr) (m : Slot) (q : Request n) : Prop where
  src : q.src = src
  asks : q.asks a = true
  ofTile : q.type.ofTile = true
  accepts : m.accepts q.type = true
  mshrType : q.mshrType = m.type

/-- A request that no MSHR of a line waits for: an instruction fill or a CMO. -/
structure Free (src : Fin n) (q : Request n) : Prop where
  src : q.src = src
  type : q.type = .load ∧ q.cacheType = .ins ∧ q.mshrType = .ifill ∨
    (∃ op, q.type = .rvcmo op) ∧ q.cacheType = .data ∧ q.mshrType = .cmo

structure Guards (src : Fin n) (a : Addr) (q : Request n) : Prop where
  src : q.src = src
  guards : q.guards a = true
  cacheType : q.cacheType = .data

namespace Tile

/-- What a tile does at a time, with the messages on NoC1 and NoC3. -/
inductive Moves (src : Fin n) (t : Tile) : Tile → List (Request n) → List Noc3 → Prop
  | keep : Moves src t t [] []
  /-- A store to a line of its own. -/
  | write (a : Addr) (merge : Block → Block) (lrsc : Bool) : (t.copy a).mesi.me = true →
      (lrsc = true → (t.copy a).lrsc = true) →
      Moves src t { t with copy := Function.update t.copy a ⟨.m, merge (t.copy a).data, lrsc⟩ } [] []
  /-- A line that is not dirty goes without notice. -/
  | drop (a : Addr) (lrsc : Bool) : (t.copy a).mesi ≠ .m → (lrsc = true → (t.copy a).lrsc = true) →
      Moves src t { t with copy := Function.update t.copy a ⟨.i, (t.copy a).data, lrsc⟩ } [] []
  /-- A dirty one goes back, after its guard. -/
  | writeBack (a : Addr) (g : Request n) : (t.copy a).mesi = .m → Guards src a g →
      Moves src t { t with copy := Function.update t.copy a ⟨.i, (t.copy a).data, false⟩ } [g]
        [.writeBack a.1 a.2 (t.copy a).data]
  /-- A miss. -/
  | ask (a : Addr) (m : Slot) (q : Request n) : t.mshr a = none → m.Ok →
      (t.copy a).mesi = .i ∧ m.state ≠ .sm ∨ (t.copy a).mesi = .s ∧ m.accepts .store = true →
      Asks src a m q →
      Moves src t { t with mshr := Function.update t.mshr a (some m) } [q] []
  /-- A store joins one that waits. -/
  | merge (a : Addr) (m : Slot) (f : Block → Block) : t.mshr a = some m →
      Moves src t { t with mshr := Function.update t.mshr a (some { m with merge := f }) } [] []
  | send (q : Request n) : Free src q → Moves src t t [q] []
  | dropInstr (a : Addr) : Moves src t { t with instr := Function.update t.instr a none } [] []

variable {src : Fin n} {t : Tile} {r : Pcx}

theorem update_copy_self (a : Addr) : { t with copy := Function.update t.copy a (t.copy a) } = t := by
  rw [Function.update_eq_self]

theorem evict_moves (a : Addr) : Moves src t (t.evict src a).1 (t.evict src a).2.1 (t.evict src a).2.2 := by
  by_cases hm : (t.copy a).mesi = .m
  · have : Moves src t _ _ _ := .writeBack a
      (noc1Message src ⟨.ackdtLd, a, id, fun _ => false⟩ (decoder cfg { reqtype := .ackdtLd }) .wbguard)
      hm ⟨rfl, by simp [noc1Message, Request.guards, Request.addr], rfl⟩
    simpa [evict, noc1Type, writesBack, decoder, L15.Decoder.ackdtLd, L15.Decoder.fillEviction, L15.Noc3Op.type, hm,
      Copy.lrscNext] using this
  · have : Moves src t _ _ _ := .drop a false hm (by simp)
    simpa [evict, noc1Type, writesBack, decoder, L15.Decoder.ackdtLd, L15.Decoder.fillEviction, hm, Copy.lrscNext] using this

/-- The first of two passes drops the line. -/
theorem firstPass_moves (ha : System.allowed r.reqtype = true) (h2 : FetchState.isTwoPass r.reqtype false = true) :
    Moves src t (t.pcxPass src r .normal).1 (t.pcxPass src r .normal).2.1 (t.pcxPass src r .normal).2.2 ∧
      ((t.pcxPass src r .normal).1.copy r.addr).mesi = .i ∧ (t.pcxPass src r .normal).1.mshr = t.mshr := by
  obtain ⟨reqtype, a, merge, compare⟩ := r
  have hc : ∃ type b8 b16, t.pcxCtl ⟨reqtype, a, merge, compare⟩ .normal =
      { L15.Decoder.tagcheckWriteback type with creditmanReq8B := b8, creditmanReq16B := b16 } := by
    cases reqtype <;> first | exact ⟨_, _, _, rfl⟩ | exact absurd ha Bool.false_ne_true | exact absurd h2 Bool.false_ne_true
  obtain ⟨type, b8, b16, hc⟩ := hc
  have hi : (if (t.copy a).mesi.mes then Mesi.i else (t.copy a).mesi) = .i := by cases (t.copy a).mesi <;> rfl
  refine ⟨?_, ?_, ?_⟩
  · by_cases hm : (t.copy a).mesi = .m
    · have : Moves src t _ _ _ := .writeBack a
        (noc1Message src ⟨reqtype, a, merge, compare⟩ (t.pcxCtl ⟨reqtype, a, merge, compare⟩ .normal) .wbguard) hm
        ⟨rfl, by simp [noc1Message, Request.guards, Request.addr], by simp [noc1Message, hc, L15.Decoder.tagcheckWriteback]⟩
      simpa [pcxPass, hc, L15.Decoder.tagcheckWriteback, noc1Type, writesBack, L15.Noc3Op.type, hm, Copy.next,
        Copy.mesiNext, Copy.dataNext, Copy.lrscNext, mshrNext, Mesi.mes] using this
    · have : Moves src t _ _ _ := .drop a (t.copy a).lrsc hm id
      simpa [pcxPass, hc, L15.Decoder.tagcheckWriteback, noc1Type, writesBack, hm, Copy.next, Copy.mesiNext,
        Copy.dataNext, Copy.lrscNext, mshrNext, hi] using this
  · simp [pcxPass, hc, L15.Decoder.tagcheckWriteback, Copy.next, Copy.mesiNext, hi]
  · simp [pcxPass, hc, L15.Decoder.tagcheckWriteback, mshrNext]

/-- The second asks the L2. -/
theorem secondPass_moves (ha : System.allowed r.reqtype = true) (h2 : FetchState.isTwoPass r.reqtype false = true)
    (hi : (t.copy r.addr).mesi = .i) (hm : t.mshr r.addr = none) :
    Moves src t (t.pcxPass src r .pcxWritebackDone).1 (t.pcxPass src r .pcxWritebackDone).2.1
      (t.pcxPass src r .pcxWritebackDone).2.2 := by
  obtain ⟨reqtype, a, merge, compare⟩ := r
  have hask (ctl : Ctl) (type : MsgType) (state : L15.TransState)
      (hok : (⟨ctl.mshrAllocationType, control reqtype, state, merge⟩ : Slot).Ok) (hs : state ≠ .sm)
      (hd : type.demand = true) (ho : type.ofTile = true) (hn : ctl.noc1Op ≠ .instructionLdRequest)
      (hac : (⟨ctl.mshrAllocationType, control reqtype, state, merge⟩ : Slot).accepts type = true) :=
    show Moves src t _ _ _ from .ask a ⟨ctl.mshrAllocationType, control reqtype, state, merge⟩
      (noc1Message src ⟨reqtype, a, merge, compare⟩ ctl type) hm hok (.inl ⟨hi, hs⟩)
      ⟨rfl, by simp [noc1Message, Request.asks, Request.addr, hd, hn], ho, hac, rfl⟩
  have hok (type : MshrType) (state : L15.TransState) (hs : state = .none ∨ state = .waitAck)
      (ht : type = if (control reqtype).load || (control reqtype).atomic then .ld else .st)
      (hic : (control reqtype).icache = false)
      (hns : ((control reqtype).nc || (control reqtype).atomic || (control reqtype).load) = true) :
        (⟨type, control reqtype, state, merge⟩ : Slot).Ok :=
    ⟨hic, ht, by
      have hf : (⟨type, control reqtype, state, merge⟩ : Slot).accepts .store = false := by
        revert hns
        simp only [Slot.accepts]
        cases (control reqtype).nc <;> cases (control reqtype).atomic <;> cases (control reqtype).load <;> simp
      rcases hs with rfl | rfl <;> simp [hf]⟩
  cases reqtype with
  | loadNc =>
      have := hask (t.pcxCtl ⟨.loadNc, a, merge, compare⟩ .pcxWritebackDone) .ncLoad .none (hok _ _ (.inl rfl) rfl rfl rfl)
        (by simp) rfl rfl (by simp [pcxCtl, decoder, L15.Decoder.loadNc]) rfl
      simpa [pcxPass, pcxCtl, decoder, L15.Decoder.loadNc, noc1Type, writesBack, L15.Noc3Op.type, Copy.next,
        Copy.mesiNext, Copy.dataNext, Copy.lrscNext, mshrNext, update_copy_self] using this
  | writethrough =>
      have := hask (t.pcxCtl ⟨.writethrough, a, merge, compare⟩ .pcxWritebackDone) .ncStore .waitAck
        (hok _ _ (.inr rfl) rfl rfl rfl) (by simp) rfl rfl (by simp [pcxCtl, decoder, L15.Decoder.writethrough]) rfl
      simpa [pcxPass, pcxCtl, decoder, L15.Decoder.writethrough, noc1Type, writesBack, L15.Noc3Op.type, Copy.next, Copy.mesiNext,
        Copy.dataNext, Copy.lrscNext, mshrNext, update_copy_self] using this
  | cas =>
      have := hask (t.pcxCtl ⟨.cas, a, merge, compare⟩ .pcxWritebackDone) .cas .none (hok _ _ (.inl rfl) rfl rfl rfl)
        (by simp) rfl rfl (by simp [pcxCtl, decoder, L15.Decoder.atomic]) rfl
      simpa [pcxPass, pcxCtl, decoder, L15.Decoder.atomic, noc1Type, writesBack, L15.Noc3Op.type, Copy.next,
        Copy.mesiNext, Copy.dataNext, Copy.lrscNext, mshrNext, update_copy_self] using this
  | swpLoadstub =>
      have := hask (t.pcxCtl ⟨.swpLoadstub, a, merge, compare⟩ .pcxWritebackDone) (.atomic .swap) .none
        (hok _ _ (.inl rfl) rfl rfl rfl) (by simp) rfl rfl (by simp [pcxCtl, decoder, L15.Decoder.atomic]) rfl
      simpa [pcxPass, pcxCtl, decoder, L15.Decoder.atomic, noc1Type, writesBack, L15.Noc3Op.type, Copy.next,
        Copy.mesiNext, Copy.dataNext, Copy.lrscNext, mshrNext, update_copy_self] using this
  | amoLr =>
      have := hask (t.pcxCtl ⟨.amoLr, a, merge, compare⟩ .pcxWritebackDone) .lr .none (hok _ _ (.inl rfl) rfl rfl rfl)
        (by simp) rfl rfl (by simp [pcxCtl, decoder, L15.Decoder.atomic]) rfl
      simpa [pcxPass, pcxCtl, decoder, L15.Decoder.atomic, noc1Type, writesBack, L15.Noc3Op.type, Copy.next,
        Copy.mesiNext, Copy.dataNext, Copy.lrscNext, mshrNext, update_copy_self] using this
  | amo op =>
      have := hask (t.pcxCtl ⟨.amo op, a, merge, compare⟩ .pcxWritebackDone) (.atomic (.amo (amoOp op))) .none
        (hok _ _ (.inl rfl) rfl rfl rfl) (by simp) rfl rfl (by simp [pcxCtl, decoder, L15.Decoder.atomic]) rfl
      simpa [pcxPass, pcxCtl, decoder, L15.Decoder.atomic, noc1Type, writesBack, L15.Noc3Op.type, Copy.next,
        Copy.mesiNext, Copy.dataNext, Copy.lrscNext, mshrNext, update_copy_self] using this
  | lineFlush => exact absurd ha Bool.false_ne_true
  | _ => exact absurd h2 Bool.false_ne_true

theorem update_mshr_self {a : Addr} (hm : t.mshr a = none) : Function.update t.mshr a none = t.mshr := by
  rw [← hm, Function.update_eq_self]

/-- The other requests: a hit or a miss. -/
theorem onePass_moves (ha : System.allowed r.reqtype = true) (h2 : FetchState.isTwoPass r.reqtype false = false)
    (hs : ¬((t.pcxCtl r .normal).stallOnMatchedMshr = true ∧ (t.mshr r.addr).isSome = true)) :
    Moves src t (t.pcxPass src r .normal).1 (t.pcxPass src r .normal).2.1 (t.pcxPass src r .normal).2.2 := by
  obtain ⟨reqtype, a, merge, compare⟩ := r
  have hnone (h : (t.pcxCtl ⟨reqtype, a, merge, compare⟩ .normal).stallOnMatchedMshr = true) : t.mshr a = none := by
    simpa [h] using hs
  cases reqtype with
  | load =>
      have hm := hnone rfl
      by_cases hc : (t.copy a).mesi.mes = true
      · simpa [pcxPass, pcxCtl, decoder, noc1Type, writesBack, L15.Noc3Op.type, Copy.next, Copy.mesiNext, Copy.dataNext,
          Copy.lrscNext, mshrNext, hc, update_copy_self, update_mshr_self hm] using Moves.keep
      · have hi : (t.copy a).mesi = .i := by
          cases h : (t.copy a).mesi <;> simp [h, Mesi.mes] at hc
          rfl
        have : Moves src t _ _ _ := .ask a ⟨.ld, control .load, .none, merge⟩
          (noc1Message src ⟨.load, a, merge, compare⟩ (t.pcxCtl ⟨.load, a, merge, compare⟩ .normal) .load) hm
          ⟨rfl, rfl, by simp [Slot.accepts, control]⟩ (.inl ⟨hi, by simp⟩)
          ⟨rfl, by simp [noc1Message, Request.asks, Request.addr, MsgType.demand, pcxCtl, decoder], rfl, rfl, rfl⟩
        simpa [pcxPass, pcxCtl, decoder, noc1Type, writesBack, L15.Noc3Op.type, Copy.next, Copy.mesiNext, Copy.dataNext,
          Copy.lrscNext, mshrNext, hc, update_copy_self] using this
  | store =>
      by_cases hb : t.hitStbuf a = true
      · obtain ⟨m, hm, -⟩ := (Option.any_eq_true _ _).1 hb
        have : Moves src t _ _ _ := .merge a m (fun b => merge (m.merge b)) hm
        simpa [pcxPass, pcxCtl, decoder, L15.Decoder.store, hb, noc1Type, writesBack, L15.Noc3Op.type, Copy.next, Copy.mesiNext,
          Copy.dataNext, Copy.lrscNext, mshrNext, update_copy_self, hm] using this
      · have hm : t.mshr a = none := hnone (by simp [pcxCtl, decoder, L15.Decoder.store, hb])
        by_cases hc : (t.copy a).mesi.me = true
        · have hmm : (if (t.copy a).mesi = .e then Mesi.m else (t.copy a).mesi) = .m := by
            cases h : (t.copy a).mesi <;> simp [h, Mesi.me] at hc ⊢
          have : Moves src t _ _ _ := .write a merge (t.copy a).lrsc hc id
          simpa [pcxPass, pcxCtl, decoder, L15.Decoder.store, hb, noc1Type, writesBack, L15.Noc3Op.type, Copy.next, Copy.mesiNext,
            Copy.dataNext, Copy.lrscNext, mshrNext, hc, hmm, update_mshr_self hm] using this
        · have hq (state : L15.TransState) : Asks src a ⟨.st, control .store, state, merge⟩
              (noc1Message src ⟨.store, a, merge, compare⟩ (t.pcxCtl ⟨.store, a, merge, compare⟩ .normal) .store) :=
            ⟨rfl, by simp [noc1Message, Request.asks, Request.addr, MsgType.demand, pcxCtl, decoder, L15.Decoder.store, hb],
              rfl, rfl,
              by simp [noc1Message, pcxCtl, decoder, L15.Decoder.store, hb]⟩
          have hcs : (t.copy a).mesi = .i ∧ (t.copy a).mesi.mes = false ∨ (t.copy a).mesi = .s ∧ (t.copy a).mesi.mes = true := by
            cases h : (t.copy a).mesi <;> simp [h, Mesi.me, Mesi.mes] at hc ⊢
          have he : (t.copy a).mesi ≠ .e := by
            intro h
            simp [h, Mesi.me] at hc
          rcases hcs with ⟨hi, hs⟩ | ⟨hi, hs⟩
          · have : Moves src t _ _ _ := .ask a ⟨.st, control .store, .im, merge⟩ _ hm ⟨rfl, rfl, by simp [Slot.accepts, control]⟩
              (.inl ⟨hi, by simp⟩) (hq .im)
            simpa [pcxPass, pcxCtl, decoder, L15.Decoder.store, hb, noc1Type, writesBack, L15.Noc3Op.type, Copy.next,
              Copy.mesiNext, Copy.dataNext, Copy.lrscNext, mshrNext, hc, hs, he, update_copy_self] using this
          · have : Moves src t _ _ _ := .ask a ⟨.st, control .store, .sm, merge⟩ _ hm ⟨rfl, rfl, by simp [Slot.accepts, control]⟩
              (.inr ⟨hi, rfl⟩) (hq .sm)
            simpa [pcxPass, pcxCtl, decoder, L15.Decoder.store, hb, noc1Type, writesBack, L15.Noc3Op.type, Copy.next,
              Copy.mesiNext, Copy.dataNext, Copy.lrscNext, mshrNext, hc, hs, he, update_copy_self] using this
  | amoSc =>
      have hm := hnone rfl
      by_cases hw : (t.copy a).mesi = .m ∧ (t.copy a).lrsc = true
      · have : Moves src t _ _ _ := .write a merge false (by simp [hw.1, Mesi.me]) (by simp)
        simpa [pcxPass, pcxCtl, decoder, L15.Decoder.amoSc, noc1Type, writesBack, L15.Noc3Op.type, Copy.next, Copy.mesiNext,
          Copy.dataNext, Copy.lrscNext, mshrNext, hw, update_mshr_self hm] using this
      · have hl : (if (t.copy a).mesi = .m then false else (t.copy a).lrsc) = (t.copy a).lrsc := by
          by_cases h : (t.copy a).mesi = .m
          · simp [h] at hw
            simp [h, hw]
          · simp [h]
        simpa [pcxPass, pcxCtl, decoder, L15.Decoder.amoSc, noc1Type, writesBack, L15.Noc3Op.type, Copy.next, Copy.mesiNext,
          Copy.dataNext, Copy.lrscNext, mshrNext, hw, hl, update_copy_self, update_mshr_self hm] using Moves.keep
  | ifill =>
      have : Moves src t _ _ _ := .send
        (noc1Message src ⟨.ifill, a, merge, compare⟩ (t.pcxCtl ⟨.ifill, a, merge, compare⟩ .normal) .load)
        ⟨rfl, .inl ⟨rfl, rfl, rfl⟩⟩
      simpa [pcxPass, pcxCtl, decoder, noc1Type, writesBack, L15.Noc3Op.type, Copy.next, Copy.mesiNext, Copy.dataNext, Copy.lrscNext,
        mshrNext, update_copy_self, Function.update_eq_self] using this
  | cmo op =>
      have : Moves src t _ _ _ := .send
        (noc1Message src ⟨.cmo op, a, merge, compare⟩ (t.pcxCtl ⟨.cmo op, a, merge, compare⟩ .normal) (.rvcmo op))
        ⟨rfl, .inr ⟨⟨op, rfl⟩, rfl, rfl⟩⟩
      simpa [pcxPass, pcxCtl, decoder, noc1Type, writesBack, L15.Noc3Op.type, Copy.next, Copy.mesiNext, Copy.dataNext, Copy.lrscNext,
        mshrNext, update_copy_self, Function.update_eq_self] using this
  | loadNc | writethrough | cas | swpLoadstub | amoLr | amo => cases h2
  | _ => exact absurd ha Bool.false_ne_true

/-- A request of the core is at most two moves. -/
theorem request_moves (ha : System.allowed r.reqtype = true) {p : Tile × List (Request n) × List Noc3}
    (hp : t.request src r = some p) :
    ∃ p1 p2 : Tile × List (Request n) × List Noc3, Moves src t p1.1 p1.2.1 p1.2.2 ∧ Moves src p1.1 p2.1 p2.2.1 p2.2.2 ∧
      p = (p2.1, p1.2.1 ++ p2.2.1, p1.2.2 ++ p2.2.2) := by
  unfold request at hp
  split at hp
  · cases hp
  rename_i hs
  split at hp
  · rename_i h2
    cases hp
    obtain ⟨h1, hi, hm⟩ := @firstPass_moves n src t r ha h2
    refine ⟨_, _, h1, secondPass_moves ha h2 hi ?_, rfl⟩
    have hst : (t.pcxCtl r .normal).stallOnMatchedMshr = true := by
      obtain ⟨reqtype, a, merge, compare⟩ := r
      cases reqtype <;> first | rfl | exact absurd ha Bool.false_ne_true | exact absurd h2 Bool.false_ne_true
    rw [hm]
    simpa [hst] using hs
  · rename_i h2
    cases hp
    exact ⟨_, (_, [], []), onePass_moves ha (by simpa using h2) hs, .keep, by simp⟩

end Tile

end OpenPiton.Coherence
