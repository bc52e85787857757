import OpenPiton.Coherence.AnswerSteps
import OpenPiton.Coherence.ReceiveSteps

namespace OpenPiton.L2

variable {n : Nat} {cfg : SetCfg n} {h h' : CacheSet n} {q : Request n} {w : Nat} {out : Out}

theorem CacheSet.Passed.atomic (hp : Passed cfg h q w h' out) : h'.atomic = h.atomic := by cases hp <;> rfl

theorem CacheSet.Passed.mshr (hp : Passed cfg h q w h' out) : h'.mshr = none ∨ h'.mshr.map Entry.req = some q := by
  cases hp
  case guardWaits => exact .inr rfl
  case invalidate => exact .inr rfl
  case callBack => exact .inr rfl
  case replace => exact .inr rfl
  case fetch => exact .inr rfl
  case ncStoreMiss => exact .inr rfl
  case ncBack => exact .inr rfl
  case ncStoreHit => exact .inr rfl
  all_goals exact .inl rfl

/-- An acknowledgement or a write-back leaves the request in its entry. -/
theorem CacheSet.answer_mshr {m : Noc3} (ha : h.answer cfg m = some h') :
    h'.mshr.map Entry.req = h.mshr.map Entry.req ∧ h'.atomic = h.atomic := by
  cases m with
  | writeBack tag k data =>
      cases ha
      exact ⟨rfl, rfl⟩
  | fwdAck type k last data =>
      obtain ⟨e, he, ha⟩ := Option.bind_eq_some_iff.1 ha
      obtain ⟨c, -, rfl⟩ := Option.map_eq_some_iff.1 ha
      exact ⟨by rw [he]; rfl, rfl⟩

namespace MsgType

variable {t : MsgType}

/-- A request of a tile keeps its kind in pipeline 1. -/
theorem trans_first (ht : t.ofTile = true) (c : Bool) :
    (t.trans false c).inPipe = true ∧ (t.trans false c).demand = t.demand ∧ (t.trans false c).isP2 = false ∧
      (t.trans false c = .wbguard ↔ t = .wbguard) ∧ (t.trans false c = .load ↔ t = .load) ∧
      (∀ op, t.trans false c = .rvcmo op ↔ t = .rvcmo op) ∧
      ((t.trans false c).isP1 = true ↔ t = .cas ∨ ∃ op, t = .atomic op) := by
  cases t <;> simp [ofTile] at ht <;> simp [trans, inPipe, demand, isP1, isP2]

/-- The second phase of an atomic. -/
theorem trans_second (ht : t = .cas ∨ ∃ op, t = .atomic op) (c : Bool) :
    (t.trans true c).inPipe = true ∧ (t.trans true c).demand = false ∧ (t.trans true c).isP1 = false ∧
      (t.trans true c).isP2 = true ∧ t.trans true c ≠ .wbguard ∧ t.trans true c ≠ .load ∧ ∀ op, t.trans true c ≠ .rvcmo op := by
  rcases ht with rfl | ⟨op, rfl⟩
  · cases c <;> simp [trans, inPipe, demand, isP1, isP2]
  · simp [trans, inPipe, demand, isP1, isP2]

end MsgType

end OpenPiton.L2

namespace OpenPiton.Coherence

open L2 (Block Request Noc2 Noc3 MsgType CacheType FwdType CacheSet SetCfg Entry ToMem MemAck Out)
open L2.CacheSet (Passed Hit Absent Valid)
open L15 (Mesi MshrType)

variable {n : Nat} {cfg : SetCfg n}

theorem Slot.accepts_trans (m : Slot) {t : MsgType} (ht : t.ofTile = true) (c : Bool) :
    m.accepts (t.trans false c) = m.accepts t := by
  cases t <;> simp [MsgType.ofTile] at ht <;> rfl

/-- The state of the set counts only with its lines, its directory and its entry. -/
theorem Safe.congr {v : Fin n → View n} {h h' : CacheSet n} {toMem : List ToMem} {fromMem : List MemAck}
    (hs : Safe cfg v h toMem fromMem) (hl : h'.lines = h.lines) (hd : h'.dir = h.dir) (hm : h'.mshr = h.mshr) :
    Safe cfg v h' toMem fromMem := by
  have hv (way : Nat) : h'.Valid way ↔ h.Valid way := by rw [CacheSet.Valid, hl]; rfl
  refine hs.write_line (hs.directory.congr hl hd) hm (by rw [hl]) hv fun way => ?_
  rw [hl]
  exact ⟨rfl, rfl, .inl rfl⟩

/-- A pass of a request that is ready, recycled or not. -/
theorem Ready.next {v : Fin n → View n} {h h' : CacheSet n} {toMem : List ToMem} {fromMem : List MemAck} {q : Request n}
    (hr : Ready cfg v h toMem fromMem q) {fromMshr recycle : Bool} {out : Out} {victim : Nat} (hv : victim < cfg.ways)
    (hp : h.pass cfg q fromMshr victim recycle = some (h', out)) :
    Safe cfg (afterPass v h' q out) h' (toMem ++ out.mem) fromMem ∧ h'.atomic = h.atomic ∧
      (h'.mshr = none ∨ h'.mshr.map Entry.req = some q) := by
  cases recycle with
  | true =>
      simp only [CacheSet.pass, if_true, Option.some.injEq, Prod.mk.injEq] at hp
      obtain ⟨rfl, rfl⟩ := hp
      rw [afterPass_wait rfl rfl]
      have hd : Directory cfg v { h with mshr := some ⟨q, h.waySel cfg q victim, true⟩ } := hr.directory.congr rfl rfl
      exact ⟨hr.wait hd rfl rfl fun h0 => absurd List.countP_nil h0, rfl, .inr rfl⟩
  | false =>
      obtain ⟨w, hw⟩ := CacheSet.pass_passed hr.ok hv hr.directory.broadcast hp
      exact ⟨hr.pass hw, hw.atomic, hw.mshr⟩

namespace System

variable (s : System n)

/-- The requests of a tile that pipeline 1 has yet to carry out: in the entry, and at the input but for an atomic
between its phases. -/
def queue (t : Fin n) : List (Request n) :=
  ((s.l2.mshr.map Entry.req).filter fun q => q.src = t).toList ++
    if s.l2.atomic = some t then (s.noc1 t).tail else s.noc1 t

def view (t : Fin n) : View n := ⟨s.tile t, s.queue t, s.noc2 t, s.noc3 t⟩

structure Inputs : Prop where
  ofTile : ∀ t, ∀ m ∈ s.noc1 t, m.type.ofTile = true ∧ Typed t m
  atomic : ∀ t, s.l2.atomic = some t → ∃ m ms, s.noc1 t = m :: ms ∧ (m.type = .cas ∨ ∃ op, m.type = .atomic op)

structure Inv (cfg : SetCfg n) : Prop where
  safe : Safe cfg s.view s.l2 s.toMem s.fromMem
  inputs : s.Inputs

variable {s} {s' : System n}

theorem Init.inv (hi : s.Init) : s.Inv cfg := by
  have hv (way : Nat) : ¬s.l2.Valid way := by simp [CacheSet.Valid, hi.vd]
  have hline (t : Fin n) (a : Addr) : (s.view t).line a = ⟨(s.tile t).copy a, none, [], [], []⟩ := by
    simp [View.line, view, queue, hi.mshr, hi.noc1, hi.noc2, hi.noc3, hi.entry, hi.atomic]
  have hgone (tag : Nat) : Gone s.view tag := by
    intro t k
    refine ⟨?_, ?_, ?_⟩
    · rw [hline]
      simp [TileLine.Reads, hi.copy]
    · simp [View.Fetches, view, hi.instr, hi.noc2]
    · rw [View.Backs, hline]
      simp
  refine ⟨⟨fun t => ⟨fun a => ?_, ?_⟩, ⟨?_, fun way _ => hi.mesi way, ?_, ?_, fun tag _ => hgone tag⟩, ?_,
    .inl fun t => ?_, ?_⟩, ?_, ?_⟩
  · rw [hline]
    refine ⟨by simp, rfl, by simp, by simp, by simp, ?_, by simp⟩
    simp [hi.lrsc]
  · simp [view, queue, hi.entry, hi.atomic, hi.noc1]
  · exact fun way _ way' _ h => absurd h (hv way)
  · simp [hi.mesi]
  · exact fun way _ h => absurd h (hv way)
  · simp [hi.entry]
  · simp [View.Still, view, hi.noc2, hi.noc3]
  · simp [awaited, hi.toMem, hi.fromMem]
  · simp [hi.noc1]
  · simp [hi.atomic]

/-! ## Tiles -/

section Tile

variable {a : Fin n}

theorem view_tileStep (hi : s.Inputs) (t : Tile) (qs : List (Request n)) (ms : List Noc3) :
    (s.tileStep a t qs ms).view = Function.update s.view a ((s.view a).moved t qs ms) := by
  funext u
  by_cases hu : u = a
  · subst hu
    by_cases ha : s.l2.atomic = some u
    · obtain ⟨m, ms', hm, -⟩ := hi.atomic u ha
      simp [view, queue, tileStep, View.moved, ha, hm]
    · simp [view, queue, tileStep, View.moved, ha]
  · simp [view, queue, tileStep, hu]

theorem Inputs.tileStep (hi : s.Inputs) {t : Tile} {qs : List (Request n)} {ms : List Noc3}
    (hq : ∀ q ∈ qs, q.type.ofTile = true ∧ Typed a q) : (s.tileStep a t qs ms).Inputs := by
  refine ⟨fun u m hm => ?_, fun u hu => ?_⟩
  · by_cases hua : u = a
    · subst hua
      simp only [System.tileStep, Function.update_self, List.mem_append] at hm
      exact hm.elim (hi.ofTile u m) (hq m)
    · simp only [System.tileStep, ne_eq, hua, not_false_eq_true, Function.update_of_ne] at hm
      exact hi.ofTile u m hm
  · obtain ⟨m, ms', hm, hc⟩ := hi.atomic u hu
    by_cases hua : u = a
    · subst hua
      exact ⟨m, ms' ++ qs, by simp [System.tileStep, hm], hc⟩
    · exact ⟨m, ms', by simpa [System.tileStep, hua] using hm, hc⟩

theorem moves_ofTile {t t' : Tile} {qs : List (Request n)} {ms : List Noc3} (hm : Tile.Moves a t t' qs ms) :
    ∀ q ∈ qs, q.type.ofTile = true := by
  intro q hq
  cases hm with
  | writeBack b g _ hg =>
      rw [List.mem_singleton.1 hq, (Request.guards_iff.1 hg.guards).1]
      rfl
  | ask b m q' _ _ _ ha =>
      rw [List.mem_singleton.1 hq]
      exact ha.ofTile
  | send q' hf =>
      rw [List.mem_singleton.1 hq]
      rcases hf.type with ⟨ht, -⟩ | ⟨⟨op, ht⟩, -⟩ <;> rw [ht] <;> rfl
  | _ => cases hq

theorem Inv.moves (hs : s.Inv cfg) {t : Tile} {qs : List (Request n)} {ms : List Noc3} (hm : Tile.Moves a (s.tile a) t qs ms) :
    (s.tileStep a t qs ms).Inv cfg := by
  obtain ⟨hl, he⟩ := moves_keep (hs.safe.tile a) hm
  refine ⟨?_, hs.inputs.tileStep fun q hq => ⟨moves_ofTile hm q hq, hl.typed q ?_⟩⟩
  · rw [view_tileStep hs.inputs]
    exact hs.safe.tile_step hl he
  · simp [View.moved, hq]

theorem tileStep_tileStep (t t' : Tile) (qs qs' : List (Request n)) (ms ms' : List Noc3) :
    (s.tileStep a t qs ms).tileStep a t' qs' ms' = s.tileStep a t' (qs ++ qs') (ms ++ ms') := by
  simp [tileStep]

theorem Inv.request (hs : s.Inv cfg) {r : Pcx} (hn : s.request a r = some s') : s'.Inv cfg := by
  unfold System.request at hn
  split at hn
  · rename_i ha
    obtain ⟨p, hp, rfl⟩ := Option.map_eq_some_iff.1 hn
    obtain ⟨p1, p2, h1, h2, rfl⟩ := Tile.request_moves ha hp
    have h1' := hs.moves h1
    rw [← tileStep_tileStep p1.1]
    exact h1'.moves (by simpa [System.tileStep] using h2)
  · cases hn

theorem Inv.receive (hs : s.Inv cfg) (hn : s.receive a = some s') : s'.Inv cfg := by
  unfold System.receive at hn
  split at hn
  · cases hn
  rename_i m ms hm
  cases hn
  have hview : ({ s with noc2 := Function.update s.noc2 a ms }.tileStep a ((s.tile a).receive m).1 []
      ((s.tile a).receive m).2).view =
      Function.update s.view a ((s.view a).received ((s.tile a).receive m).1 ms ((s.tile a).receive m).2) := by
    funext u
    by_cases hu : u = a
    · subst hu
      simp [view, queue, tileStep, View.received]
    · simp [view, queue, tileStep, hu]
  have hl := hs.safe.tile a
  have hnoc : (s.view a).noc2 = m :: ms := hm
  have hkeep : Local a ((s.view a).received ((s.tile a).receive m).1 ms ((s.tile a).receive m).2) ∧
      (s.view a).Evolves ((s.view a).received ((s.tile a).receive m).1 ms ((s.tile a).receive m).2) := by
    cases m with
    | dataAck mshrType tag k y data =>
        by_cases ht : mshrType = .ifill
        · subst ht
          exact ifillAck_keep hl hnoc
        · exact dataAck_keep hl hnoc ht
    | nodataAck mshrType tag k => exact nodataAck_keep hl hnoc
    | forward type tag v di =>
        have hns : ¬(s.view a).Still := by
          intro h0
          have := h0.1 _ (by rw [hnoc]; exact List.mem_cons_self)
          cases this
        obtain h0 | ⟨e, p, he, hf⟩ := hs.safe.phase
        · exact absurd (h0 a) hns
        by_cases ha : a ∈ p.tiles
        · rcases hf.due a ha with hsent | hack
          · exact forward_keep hl hnoc hsent
          · have := hack.1 _ (by rw [hnoc]; exact List.mem_cons_self)
            cases this
        · exact absurd (hf.still a ha) hns
  refine ⟨?_, ?_⟩
  · rw [hview]
    exact hs.safe.tile_step hkeep.1 hkeep.2
  · have hi : ({ s with noc2 := Function.update s.noc2 a ms } : System n).Inputs := ⟨hs.inputs.ofTile, hs.inputs.atomic⟩
    exact hi.tileStep (by simp)

end Tile

/-! ## The L2 -/

section Home

variable {victim : Nat} {recycle : Bool}

theorem Inv.replay (hs : s.Inv cfg) (hn : s.replay cfg victim recycle = some s') : s'.Inv cfg := by
  obtain ⟨e, he, hn⟩ := Option.bind_eq_some_iff.1 hn
  split at hn
  · rename_i hc
    obtain ⟨⟨h', out⟩, hp, rfl⟩ := Option.map_eq_some_iff.1 hn
    have hset : s.l2 = (s.l2.setEntry none).setEntry (some e) := by
      rw [CacheSet.setEntry, CacheSet.setEntry, ← he]
    have hr : Ready cfg s.view (s.l2.setEntry none) s.toMem s.fromMem e.req := by
      refine Safe.ready ?_ (by simpa using hc.1)
      rw [← hset]
      exact hs.safe
    obtain ⟨hsafe, hat, hm⟩ := hr.next hc.2 hp
    have hat : h'.atomic = s.l2.atomic := hat
    have hview : (s.l2Step h' out).view = afterPass s.view h' e.req out := by
      funext u
      by_cases hu : e.req.src = u
      · rcases hm with hm | hm
        · simp [view, queue, l2Step, afterPass, View.passed, hm, he, hu, hat, Option.filter]
        · have hsome : h'.mshr.isNone = false := by
            rw [← Option.isNone_map (f := Entry.req), hm]
            rfl
          simp [view, queue, l2Step, afterPass, View.passed, hm, he, hu, hat, hsome]
      · rcases hm with hm | hm <;> simp [view, queue, l2Step, afterPass, View.passed, hm, he, hu, Ne.symm hu, hat]
    refine ⟨?_, hs.inputs.ofTile, fun t ht => hs.inputs.atomic t (hat ▸ ht)⟩
    rw [hview]
    exact hsafe
  · cases hn

/-- The request of a tile in pipeline 1. -/
def taken (m : Request n) : Request n := { m with type := m.type.trans s.l2.atomic.isSome s.l2.casCmp }

theorem Inv.typed_taken (hs : s.Inv cfg) {a : Fin n} {m : Request n} {ms : List (Request n)} (hm : s.noc1 a = m :: ms)
    (hat : s.l2.atomic = none ∨ s.l2.atomic = some a) : (s.taken m).type.inPipe = true ∧ Typed a (s.taken m) := by
  obtain ⟨ho, ht⟩ := hs.inputs.ofTile a m (by simp [hm])
  rcases hat with hat | hat
  · obtain ⟨h1, -, -, -, h2, h3, -⟩ := MsgType.trans_first ho s.l2.casCmp
    simp only [taken, hat, Option.isSome_none]
    exact ⟨h1, ht.src, fun h => ht.data fun h' => h (h2.2 h'), ht.instr, fun op h => ht.cmo op ((h3 op).1 h)⟩
  · obtain ⟨m', ms', hm', hc⟩ := hs.inputs.atomic a hat
    rw [hm] at hm'
    obtain ⟨rfl, -⟩ := List.cons.inj hm'
    obtain ⟨h1, -, -, -, -, -, h2⟩ := MsgType.trans_second hc s.l2.casCmp
    simp only [taken, hat, Option.isSome_some]
    refine ⟨h1, ht.src, fun _ => ht.data ?_, ht.instr, fun op h => absurd h (h2 op)⟩
    rcases hc with hc | ⟨op, hc⟩ <;> simp [hc]

/-- A request is ready that enters pipeline 1. -/
theorem Inv.ready (hs : s.Inv cfg) {a : Fin n} {m : Request n} {ms : List (Request n)} (hm : s.noc1 a = m :: ms)
    (hnone : s.l2.mshr = none) (hat : s.l2.atomic = none ∨ s.l2.atomic = some a) :
    Ready cfg (Function.update s.view a { s.view a with queue := s.taken m :: ms }) s.l2 s.toMem s.fromMem (s.taken m) := by
  obtain ⟨hin, htq⟩ := hs.typed_taken hm hat
  obtain ⟨ho, ht⟩ := hs.inputs.ofTile a m (by simp [hm])
  have hl := hs.safe.tile a
  have hline (b : Addr) : (({ s.view a with queue := s.taken m :: ms } : View n).line b).Ok := by
    rcases hat with hat | hat
    · have hq : (s.view a).queue = m :: ms := by simp [view, queue, hnone, hat, hm]
      obtain ⟨-, hd, -, hg, -⟩ := MsgType.trans_first ho s.l2.casCmp
      have hb : ((s.taken m).asks b || (s.taken m).guards b) = (m.asks b || m.guards b) := by
        have hg' : (m.type.trans false s.l2.casCmp == .wbguard) = (m.type == .wbguard) := by
          rw [Bool.eq_iff_iff, beq_iff_eq, beq_iff_eq, hg]
        simp [taken, Request.asks, Request.guards, Request.addr, hat, hd, hg']
      by_cases hmb : (m.asks b || m.guards b) = true
      · have hq' : ((s.view a).line b).queue = m :: ms.filter fun q => q.asks b || q.guards b := by
          simp only [View.line, hq, List.filter_cons, hmb, if_true]
        have : TileLine.Ok { (s.view a).line b with queue := s.taken m :: ms.filter fun q => q.asks b || q.guards b } :=
          (hl.line b).retype hq' (by simp [taken, hat, hd]) (by simp [taken, hat, hg])
            (fun m' => by simpa only [taken, hat, Option.isSome_none] using m'.accepts_trans ho _) rfl
        simpa only [View.line, List.filter_cons, hb, hmb, if_true] using this
      · have hnb : (m.asks b || m.guards b) = false := by simpa using hmb
        have : ({ s.view a with queue := s.taken m :: ms } : View n).line b = (s.view a).line b := by
          simp only [View.line, hq, List.filter_cons, hb, hnb, Bool.false_eq_true, if_false]
        rw [this]
        exact hl.line b
    · obtain ⟨m', ms', hm', hc⟩ := hs.inputs.atomic a hat
      rw [hm] at hm'
      obtain ⟨rfl, rfl⟩ := List.cons.inj hm'
      have hq : (s.view a).queue = ms := by simp [view, queue, hnone, hat, hm]
      obtain ⟨-, hd, -, -, hg, -⟩ := MsgType.trans_second hc s.l2.casCmp
      have hb : ((s.taken m).asks b || (s.taken m).guards b) = false := by
        simp [taken, Request.asks, Request.guards, hat, hd, hg]
      have : ({ s.view a with queue := s.taken m :: ms } : View n).line b = (s.view a).line b := by
        simp only [View.line, hq, List.filter_cons, hb, Bool.false_eq_true, if_false]
      rw [this]
      exact hl.line b
  have hrest : ∀ q ∈ ms, Typed a q := fun q hq => (hs.inputs.ofTile a q (by simp [hm, hq])).2
  refine ⟨fun u => ?_, hs.safe.directory.shrink fun u b => ?_, fun u => ?_, ?_, hin, ms, ?_⟩
  · by_cases hu : u = a
    · subst hu
      rw [Function.update_self]
      refine ⟨hline, fun q hq => ?_⟩
      rcases List.mem_cons.1 hq with rfl | hq
      · exact htq
      · exact hrest q hq
    · rw [Function.update_of_ne hu]
      exact hs.safe.tile u
  · by_cases hu : u = a
    · subst hu
      rw [Function.update_self]
      exact ⟨id, id, id, .inl⟩
    · rw [Function.update_of_ne hu]
      exact .refl _ _
  · have h0 : (s.view u).Still := by
      obtain h0 | ⟨e, p, he, -⟩ := hs.safe.phase
      · exact h0 u
      · rw [hnone] at he
        cases he
    by_cases hu : u = a
    · subst hu
      rw [Function.update_self]
      exact h0
    · rw [Function.update_of_ne hu]
      exact h0
  · by_contra ha
    obtain ⟨-, e, he, -⟩ := hs.safe.memory (Nat.pos_of_ne_zero ha)
    rw [hnone] at he
    cases he
  · rw [htq.src, Function.update_self]

theorem view_accept {a : Fin n} {q : Request n} {ms : List (Request n)} {h' : CacheSet n} {out : Out} (hnone : s.l2.mshr = none)
    (hat : s.l2.atomic = none ∨ s.l2.atomic = some a) (hq : q.src = a)
    (hm : h'.mshr = none ∨ h'.mshr.map Entry.req = some q) {atomic : Option (Fin n)} {noc1 : Fin n → List (Request n)}
    (ha : atomic = some a ∧ noc1 = s.noc1 ∧ (s.noc1 a).tail = ms ∨ atomic = none ∧ noc1 = Function.update s.noc1 a ms) :
    ({ s.l2Step { h' with atomic := atomic } out with noc1 := noc1 } : System n).view =
      afterPass (Function.update s.view a { s.view a with queue := q :: ms }) h' q out := by
  have hn {u : Fin n} (hu : u ≠ a) : ¬s.l2.atomic = some u := by
    rcases hat with h | h <;> simp [h, Ne.symm hu]
  funext u
  rcases hm with hm | hm
  · by_cases hu : u = a
    · subst hu
      rcases ha with ⟨rfl, rfl, ht⟩ | ⟨rfl, rfl⟩
      · simp [view, queue, l2Step, afterPass, View.passed, hm, hq, ht]
      · simp [view, queue, l2Step, afterPass, View.passed, hm, hq]
    · rcases ha with ⟨rfl, rfl, ht⟩ | ⟨rfl, rfl⟩ <;>
        simp [view, queue, l2Step, afterPass, View.passed, hm, hnone, hn hu, hu, Ne.symm hu, hq]
  · obtain ⟨e, he, rfl⟩ := Option.map_eq_some_iff.1 hm
    by_cases hu : u = a
    · subst hu
      rcases ha with ⟨rfl, rfl, ht⟩ | ⟨rfl, rfl⟩
      · simp [view, queue, l2Step, afterPass, View.passed, he, hq, ht, Option.filter]
      · simp [view, queue, l2Step, afterPass, View.passed, he, hq, Option.filter]
    · rcases ha with ⟨rfl, rfl, ht⟩ | ⟨rfl, rfl⟩ <;>
        simp [view, queue, l2Step, afterPass, View.passed, he, hnone, hn hu, hu, Ne.symm hu, hq, Option.filter]

theorem Inv.accept (hs : s.Inv cfg) {a : Fin n} (hn : s.accept cfg a victim recycle = some s') : s'.Inv cfg := by
  unfold System.accept at hn
  split at hn
  · cases hn
  rename_i m ms hm
  split at hn
  · rename_i hc
    obtain ⟨hnone, hv, hat⟩ := hc
    have hnone : s.l2.mshr = none := Option.isNone_iff_eq_none.1 hnone
    have hat : s.l2.atomic = none ∨ s.l2.atomic = some a := by
      cases h : s.l2.atomic with
      | none => exact .inl rfl
      | some b => exact .inr (by simpa [h] using hat)
    obtain ⟨r, hr, rfl⟩ := Option.map_eq_some_iff.1 hn
    obtain ⟨⟨h', out⟩, hp, rfl⟩ := Option.map_eq_some_iff.1 hr
    obtain ⟨hin, htq⟩ := hs.typed_taken hm hat
    obtain ⟨hsafe, hat', hm'⟩ := (hs.ready hm hnone hat).next hv hp
    have hsrc : m.src = a := htq.src
    -- which phase of an atomic this is
    have hphase : (s.taken m).type.isP1 = true ∧ s.l2.atomic = none ∧ (m.type = .cas ∨ ∃ op, m.type = .atomic op) ∨
        (s.taken m).type.isP1 = false ∧ ((s.taken m).type.isP2 = true ∨ s.l2.atomic = none) := by
      rcases hat with hat | hat
      · obtain ⟨-, -, -, -, -, -, h1⟩ := MsgType.trans_first (hs.inputs.ofTile a m (by simp [hm])).1 s.l2.casCmp
        by_cases hp1 : (s.taken m).type.isP1 = true
        · exact .inl ⟨hp1, hat, h1.1 (by simpa [taken, hat] using hp1)⟩
        · exact .inr ⟨by simpa using hp1, .inr hat⟩
      · obtain ⟨m', ms', hm'', hc⟩ := hs.inputs.atomic a hat
        rw [hm] at hm''
        obtain ⟨rfl, -⟩ := List.cons.inj hm''
        obtain ⟨-, -, h1, h2, -⟩ := MsgType.trans_second hc s.l2.casCmp
        exact .inr ⟨by simpa [taken, hat] using h1, .inl (by simpa [taken, hat] using h2)⟩
    change System.Inv { s.l2Step
        { h' with
          atomic := if (s.taken m).type.isP1 then some m.src else if (s.taken m).type.isP2 then none else s.l2.atomic } out with
        noc1 := if !(s.taken m).type.isP1 then Function.update s.noc1 a ms else s.noc1 } cfg
    rcases hphase with ⟨h1, h0, hc⟩ | ⟨h1, h2⟩
    · simp only [h1, if_true, Bool.not_true, Bool.false_eq_true, if_false, hsrc]
      refine ⟨?_, hs.inputs.ofTile, fun t ht => ?_⟩
      · rw [view_accept hnone hat htq.src hm' (.inl ⟨rfl, rfl, show (s.noc1 a).tail = ms by rw [hm, List.tail_cons]⟩)]
        exact hsafe.congr rfl rfl rfl
      · obtain rfl : a = t := Option.some.inj ht
        exact ⟨m, ms, hm, hc⟩
    · have hA : (if (s.taken m).type.isP2 = true then none else s.l2.atomic) = none := by
        rcases h2 with h2 | h2
        · rw [if_pos h2]
        · rw [h2, ite_self]
      simp only [h1, if_true, Bool.not_false, Bool.false_eq_true, if_false, hA]
      refine ⟨?_, fun t m' hm' => ?_, fun t ht => ?_⟩
      · rw [view_accept hnone hat htq.src hm' (.inr ⟨rfl, rfl⟩)]
        exact hsafe.congr rfl rfl rfl
      · by_cases hta : t = a
        · subst hta
          simp only [Function.update_self] at hm'
          exact hs.inputs.ofTile t m' (by simp [hm, hm'])
        · simp only [ne_eq, hta, not_false_eq_true, Function.update_of_ne] at hm'
          exact hs.inputs.ofTile t m' hm'
      · cases ht
  · cases hn

/-! ## The other events -/

theorem Inv.answer (hs : s.Inv cfg) {a : Fin n} (hn : s.answer cfg a = some s') : s'.Inv cfg := by
  unfold System.answer at hn
  split at hn
  · cases hn
  rename_i m ms hm
  obtain ⟨h', ha, rfl⟩ := Option.map_eq_some_iff.1 hn
  obtain ⟨hreq, hat⟩ := CacheSet.answer_mshr ha
  refine ⟨?_, hs.inputs.ofTile, fun t ht => hs.inputs.atomic t (hat ▸ ht)⟩
  have hview : ({ s with l2 := h', noc3 := Function.update s.noc3 a ms } : System n).view =
      Function.update s.view a { s.view a with noc3 := ms } := by
    funext u
    by_cases hu : u = a
    · subst hu
      simp [view, queue, hreq, hat]
    · simp [view, queue, hreq, hat, hu]
  rw [hview]
  exact hs.safe.answer hm ha

theorem Inv.fill (hs : s.Inv cfg) (hn : s.fill = some s') : s'.Inv cfg := by
  unfold System.fill at hn
  split at hn
  · cases hn
  rename_i m ms hm
  obtain ⟨e, he, rfl⟩ := Option.map_eq_some_iff.1 hn
  have hreq : (s.l2.fill e m).mshr.map Entry.req = s.l2.mshr.map Entry.req := by
    rw [he]
    cases m <;> rfl
  have hat : (s.l2.fill e m).atomic = s.l2.atomic := by cases m <;> rfl
  refine ⟨?_, hs.inputs.ofTile, fun t ht => hs.inputs.atomic t (hat ▸ ht)⟩
  have hview : ({ s with l2 := s.l2.fill e m, fromMem := ms } : System n).view = s.view := by
    funext u
    simp [view, queue, hreq, hat]
  have hsafe := hs.safe
  rw [hm] at hsafe
  rw [hview]
  exact hsafe.fill he

theorem Inv.retry (hs : s.Inv cfg) (hn : s.retry = some s') : s'.Inv cfg := by
  obtain ⟨e, he, hn⟩ := Option.bind_eq_some_iff.1 hn
  obtain ⟨h', hr, rfl⟩ := Option.map_eq_some_iff.1 hn
  have hreq : h'.mshr.map Entry.req = s.l2.mshr.map Entry.req ∧ h'.atomic = s.l2.atomic := by
    unfold CacheSet.retry at hr
    split at hr
    · cases hr
      exact ⟨by rw [he]; rfl, rfl⟩
    · cases hr
  refine ⟨?_, hs.inputs.ofTile, fun t ht => hs.inputs.atomic t (hreq.2 ▸ ht)⟩
  have hview : ({ s with l2 := h' } : System n).view = s.view := by
    funext u
    simp [view, queue, hreq]
  rw [hview]
  exact hs.safe.retry he hr

theorem Inv.memory (hs : s.Inv cfg) (hn : s.memoryNext = some s') : s'.Inv cfg := by
  unfold System.memoryNext at hn
  split at hn
  · cases hn
  all_goals
    rename_i hm
    cases hn
    refine ⟨hs.safe.mem ?_ ?_, hs.inputs.ofTile, hs.inputs.atomic⟩
  · simp only [awaited, hm, List.countP_cons, List.length_append, List.length_singleton, ToMem.asks, if_true]
    omega
  · rintro (⟨tag', h⟩ | ⟨data, -⟩)
    · exact .inl ⟨tag', by simp [hm, show ToMem.load tag' ∈ _ from h]⟩
    · exact .inl ⟨_, by rw [hm]; exact List.mem_cons_self⟩
  · simp [awaited, hm, ToMem.asks]
  · rintro (⟨tag', h⟩ | h)
    · exact .inl ⟨tag', by simp [hm, show ToMem.load tag' ∈ _ from h]⟩
    · exact .inr h
  · simp only [awaited, hm, List.countP_cons, List.length_append, List.length_singleton, ToMem.asks, if_true]
    omega
  · rintro (⟨tag', h⟩ | ⟨data, h⟩)
    · exact .inl ⟨tag', by simp [hm, show ToMem.load tag' ∈ _ from h]⟩
    · refine .inr ⟨data, ?_⟩
      rcases List.mem_append.1 h with h | h
      · exact h
      · cases List.mem_singleton.1 h

/-- An event keeps the invariant. -/
theorem Inv.next (hs : s.Inv cfg) {e : Event n} (hn : s.next cfg e = some s') : s'.Inv cfg := by
  cases e with
  | request a r => exact hs.request hn
  | evict a addr =>
      cases hn
      exact hs.moves (Tile.evict_moves addr)
  | dropInstr a addr =>
      cases hn
      exact hs.moves (.dropInstr addr)
  | receive a => exact hs.receive hn
  | accept a victim recycle => exact hs.accept hn
  | replay victim recycle => exact hs.replay hn
  | retry => exact hs.retry hn
  | answer a => exact hs.answer hn
  | fill => exact hs.fill hn
  | memory => exact hs.memory hn

theorem Reachable.inv (hr : Reachable cfg s) : s.Inv cfg := by
  induction hr with
  | init hi => exact hi.inv
  | step _ hn ih => exact ih.next hn

end Home

/-! ## What holds of every run -/

variable (s cfg)

/-- A tile may read a line, or will when it has its answer. -/
def mayRead (t : Fin n) (a : Addr) : Prop :=
  ((s.tile t).copy a).mesi ≠ .i ∨ ∃ m ∈ s.noc2 t, m.answers a = true ∧ m.mesi ≠ .i

def mayWrite (t : Fin n) (a : Addr) : Prop :=
  ((s.tile t).copy a).mesi.me = true ∨ ∃ m ∈ s.noc2 t, m.answers a = true ∧ m.mesi.me = true

def mayFetch (t : Fin n) (a : Addr) : Prop := ((s.tile t).instr a).isSome = true ∨ ∃ m ∈ s.noc2 t, m.givesInstr a = true

/-- What the tiles may do agrees with one another and with the directory. -/
structure Coherent : Prop where
  /-- A line that a tile may write is in no other tile, and under way to none. -/
  single : ∀ t u a, t ≠ u → s.mayWrite t a → ¬s.mayRead u a
  /-- The instructions of a line are above no tile while any tile has it as data. -/
  kind : ∀ t u tag k k', s.mayRead t (tag, k) → ¬s.mayFetch u (tag, k')
  /-- The L2 has the line of every copy, with the tile as its owner or in its directory. -/
  data : ∀ t a, s.mayRead t a → ∃ way, Hit cfg s.l2 a.1 way ∧
    ((s.l2.lines.line way).mesi = .e ∧ (s.l2.lines.line way).owner = t.val ∧
        (s.l2.lines.line way).subline.getLsbD a.2.toNat = true ∨
      (s.l2.lines.line way).mesi = .s ∧ ¬s.mayWrite t a ∧ s.l2.dir way t = true)
  instr : ∀ t a, s.mayFetch t a → ∃ way, Hit cfg s.l2 a.1 way ∧
    (s.l2.lines.line way).mesi = .s ∧ (s.l2.lines.line way).di = .ins ∧ s.l2.dir way t = true

/-- Every MSHR of a tile has one request or answer under way, which is of its kind; without one there is none. -/
structure Accounted : Prop where
  one : ∀ t a, (s.queue t).countP (·.asks a) + (s.noc2 t).countP (·.answers a) = if ((s.tile t).mshr a).isSome then 1 else 0
  asked : ∀ t a m, (s.tile t).mshr a = some m → ∀ q ∈ s.queue t, q.asks a = true →
    m.accepts q.type = true ∧ q.mshrType = m.type
  answered : ∀ t a m, (s.tile t).mshr a = some m → ∀ r ∈ s.noc2 t, r.answers a = true → m.answeredBy r = true
  /-- Only a store waits for a line that the tile still has, and to read. -/
  copy : ∀ t a m, (s.tile t).mshr a = some m →
    ((s.tile t).copy a).mesi = .i ∨ ((s.tile t).copy a).mesi = .s ∧ m.accepts .store = true

/-- A write-back under way is the only one of its line; the L2 still has its tile as the owner of what it brings,
and no tile has a copy or will get one with an answer under way. -/
def BacksOwned : Prop :=
  ∀ t tag k data, .writeBack tag k data ∈ s.noc3 t →
    (s.noc3 t).countP (·.isBack (tag, k)) = 1 ∧
    (∃ way, Hit cfg s.l2 tag way ∧ (s.l2.lines.line way).mesi = .e ∧ (s.l2.lines.line way).owner = t.val ∧
      (s.l2.lines.line way).subline.getLsbD k.toNat = true) ∧
    ∀ u, ¬s.mayRead u (tag, k)

/-- A reservation is on a line that its tile has modified and no other has or is sent. -/
def Reserved : Prop :=
  ∀ t a, ((s.tile t).copy a).lrsc = true → ((s.tile t).copy a).mesi = .m ∧ (s.tile t).mshr a = none ∧
    ∀ u, u ≠ t → ¬s.mayRead u a

/-- Pipeline 2 has a row for every message that comes to it, and an acknowledgement finds the entry that waits for it. -/
def Answerable : Prop :=
  ∀ t m ms, s.noc3 t = m :: ms → (∃ s', s.answer cfg t = some s') ∧
    (m.isAck = true → ∃ e, s.l2.mshr = some e ∧ e.pending = false ∧ e.req.type ≠ .wbguard ∧ e.way < cfg.ways ∧ s.l2.Valid e.way)

variable {s cfg}

theorem view_line (t : Fin n) (a : Addr) : (s.view t).line a =
    ⟨(s.tile t).copy a, (s.tile t).mshr a, (s.queue t).filter fun q => q.asks a || q.guards a,
      (s.noc2 t).filter (·.answers a), (s.noc3 t).filter (·.isBack a)⟩ := rfl

theorem mayRead_iff {t : Fin n} {a : Addr} : s.mayRead t a ↔ ((s.view t).line a).Reads := by
  simp [mayRead, TileLine.Reads, view_line, and_assoc]

theorem mayWrite_iff {t : Fin n} {a : Addr} : s.mayWrite t a ↔ ((s.view t).line a).Writes := by
  simp [mayWrite, TileLine.Writes, view_line, and_assoc]

theorem mayFetch_iff {t : Fin n} {a : Addr} : s.mayFetch t a ↔ (s.view t).Fetches a := .rfl

/-- The L2 has the line of what a tile has: it shares the line, or has an owner for it. -/
theorem Inv.found (hs : s.Inv cfg) {t : Fin n} {tag : Nat} {k : BitVec 2}
    (h : ((s.view t).line (tag, k)).Reads ∨ (s.view t).Fetches (tag, k)) :
    ∃ way, Hit cfg s.l2 tag way ∧
      ((s.l2.lines.line way).mesi = .s ∧
          (∀ u j, ¬((s.view u).line (tag, j)).Writes ∧
            (((s.view u).line (tag, j)).Reads → s.l2.dir way u = true ∧ (s.l2.lines.line way).di = .data) ∧
            ((s.view u).Fetches (tag, j) → s.l2.dir way u = true ∧ (s.l2.lines.line way).di = .ins)) ∨
        (s.l2.lines.line way).mesi = .e ∧ ∃ o : Fin n, (s.l2.lines.line way).owner = o.val ∧
          ∀ u j, ¬(s.view u).Fetches (tag, j) ∧ (((s.view u).line (tag, j)).Reads →
            u = o ∧ (s.l2.lines.line way).subline.getLsbD j.toNat = true)) := by
  have hg : ¬Gone s.view tag := fun hg => h.elim (hg t k).1 (hg t k).2.1
  obtain ⟨way, hh⟩ : ∃ way, Hit cfg s.l2 tag way := by
    by_contra hno
    refine hg (hs.safe.directory.absent tag fun way hway => ?_)
    by_contra hhit
    exact hno ⟨way, hway, by simpa using hhit⟩
  have hl := hs.safe.directory.line_of_hit hh
  refine ⟨way, hh, ?_⟩
  unfold LineOk at hl
  cases hm : (s.l2.lines.line way).mesi with
  | i =>
      simp only [hm] at hl
      exact absurd hl hg
  | s =>
      simp only [hm] at hl
      exact .inl ⟨rfl, fun u j => ⟨(hl u j).1, (hl u j).2.2⟩⟩
  | e =>
      simp only [hm] at hl
      obtain ⟨-, -, o, ho, hx⟩ := hl
      exact .inr ⟨rfl, o, ho, fun u j => ⟨(hx u j).1, fun h => (hx u j).2 (.inl h)⟩⟩
  | b => simp only [hm] at hl

/-- A tile that may write a line has it alone. -/
theorem Inv.alone (hs : s.Inv cfg) {t u : Fin n} {a : Addr} (hne : t ≠ u) (hw : s.mayWrite t a) : ¬s.mayRead u a := by
  rw [mayWrite_iff] at hw
  rw [mayRead_iff]
  intro hc
  obtain ⟨way, -, ⟨-, hl⟩ | ⟨-, o, -, hx⟩⟩ := hs.found (.inl hw.reads)
  · exact (hl t a.2).1 hw
  · have ht := ((hx t a.2).2 hw.reads).1
    have hu := ((hx u a.2).2 hc).1
    exact hne (ht.trans hu.symm)

theorem Inv.no_fetch (hs : s.Inv cfg) {t u : Fin n} {tag : Nat} {k k' : BitVec 2} (hc : s.mayRead t (tag, k)) :
    ¬s.mayFetch u (tag, k') := by
  rw [mayRead_iff] at hc
  rw [mayFetch_iff]
  intro hi
  obtain ⟨way, -, ⟨-, hl⟩ | ⟨-, o, -, hx⟩⟩ := hs.found (.inl hc)
  · have h1 := ((hl t k).2.1 hc).2
    have h2 := ((hl u k').2.2 hi).2
    rw [h1] at h2
    cases h2
  · exact (hx u k').1 hi

theorem Inv.data_found (hs : s.Inv cfg) {t : Fin n} {a : Addr} (hc : s.mayRead t a) : ∃ way, Hit cfg s.l2 a.1 way ∧
    ((s.l2.lines.line way).mesi = .e ∧ (s.l2.lines.line way).owner = t.val ∧
        (s.l2.lines.line way).subline.getLsbD a.2.toNat = true ∨
      (s.l2.lines.line way).mesi = .s ∧ ¬s.mayWrite t a ∧ s.l2.dir way t = true) := by
  rw [mayRead_iff] at hc
  rw [mayWrite_iff]
  obtain ⟨way, hh, ⟨hm, hl⟩ | ⟨hm, o, ho, hx⟩⟩ := hs.found (.inl hc)
  · obtain ⟨hw, hd, -⟩ := hl t a.2
    exact ⟨way, hh, .inr ⟨hm, hw, (hd hc).1⟩⟩
  · obtain ⟨rfl, hk⟩ := (hx t a.2).2 hc
    exact ⟨way, hh, .inl ⟨hm, ho, hk⟩⟩

theorem Inv.instr_found (hs : s.Inv cfg) {t : Fin n} {a : Addr} (hf : s.mayFetch t a) : ∃ way, Hit cfg s.l2 a.1 way ∧
    (s.l2.lines.line way).mesi = .s ∧ (s.l2.lines.line way).di = .ins ∧ s.l2.dir way t = true := by
  rw [mayFetch_iff] at hf
  obtain ⟨way, hh, ⟨hm, hl⟩ | ⟨-, o, -, hx⟩⟩ := hs.found (k := a.2) (.inr hf)
  · obtain ⟨h1, h2⟩ := (hl t a.2).2.2 hf
    exact ⟨way, hh, hm, h2, h1⟩
  · exact absurd hf (hx t a.2).1

theorem Inv.coherent_tiles (hs : s.Inv cfg) : s.Coherent cfg where
  single _ _ _ hne hw := hs.alone hne hw
  kind _ _ _ _ _ hc := hs.no_fetch hc
  data _ _ hc := hs.data_found hc
  instr _ _ hf := hs.instr_found hf

/-- No request of a tile is lost or answered twice. -/
theorem Inv.accounted (hs : s.Inv cfg) : s.Accounted := by
  have hok (t : Fin n) (a : Addr) := (hs.safe.tile t).line a
  refine ⟨fun t a => ?_, fun t a m hm q hq ha => ?_, fun t a m hm r hq ha => ?_, fun t a m hm => ((hok t a).slot m hm).2⟩
  · have hl := (hok t a).live
    have hq : (s.queue t).countP (fun q => q.type.demand && (q.asks a || q.guards a)) = (s.queue t).countP (·.asks a) := by
      refine List.countP_congr fun q _ => ?_
      simp only [Request.asks, Request.guards, Bool.and_eq_true, Bool.or_eq_true, beq_iff_eq]
      constructor
      · rintro ⟨hd, h | ⟨h, -⟩⟩
        · exact h
        · simp [h, MsgType.demand] at hd
      · exact fun h => ⟨h.1.1, .inl h⟩
    rw [← hq, List.countP_eq_length_filter (p := fun r => Noc2.answers r a)]
    rw [TileLine.live, view_line, List.countP_filter] at hl
    exact hl
  · exact (hok t a).asked m hm q (List.mem_filter.2 ⟨hq, by simp [ha]⟩) (Request.asks_iff.1 ha).1
  · exact (hok t a).answered m hm r (List.mem_filter.2 ⟨hq, ha⟩)

/-- A write-back finds its line, and nobody else has it. -/
theorem Inv.backsOwned (hs : s.Inv cfg) : s.BacksOwned cfg := by
  intro t tag k data hmem
  have hb : (s.view t).Backs (tag, k) := by
    rw [View.Backs, view_line]
    exact List.ne_nil_of_mem (List.mem_filter.2 ⟨hmem, by simp⟩)
  obtain ⟨h1, hnr, -⟩ := ((hs.safe.tile t).line (tag, k)).back hb
  refine ⟨by simpa [view_line, List.countP_eq_length_filter] using h1, ?_⟩
  obtain ⟨way, hh, hm, -, ho, hx, hk⟩ := hs.safe.owner_of_back hb
  refine ⟨⟨way, hh, hm, ho, hk⟩, fun u => ?_⟩
  rw [mayRead_iff]
  intro hc
  obtain ⟨rfl, -⟩ := (hx u k).2 (.inl hc)
  exact hnr hc

theorem Inv.reserved (hs : s.Inv cfg) : s.Reserved := by
  intro t a hl
  have hok := (hs.safe.tile t).line a
  have hm : ((s.tile t).copy a).mesi = .m := hok.lrsc hl
  have hme : ((s.tile t).copy a).mesi.me = true := by rw [hm, Mesi.me]
  exact ⟨hm, hok.mshr_of_me hme, fun u hu => hs.alone hu.symm (.inl hme)⟩

theorem csFwdAck_isSome {type : FwdType} {mesi : L2.Mesi} (h : type ≠ .inv → mesi = .e ∨ mesi = .i) (last valid one : Bool) :
    ∃ c, L2.csFwdAck type mesi last valid one = some c := by
  rw [← Option.isSome_iff_exists]
  cases type with
  | load => rcases h (by simp) with rfl | rfl <;> cases last <;> rfl
  | store => rcases h (by simp) with rfl | rfl <;> cases last <;> rfl
  | inv => cases last <;> cases one <;> rfl

theorem Inv.answerable (hs : s.Inv cfg) : s.Answerable cfg := by
  intro t m ms hm
  have hn : (s.view t).noc3 = m :: ms := hm
  cases m with
  | writeBack tag k data => exact ⟨⟨_, by rw [System.answer, hm]; rfl⟩, fun ha => by cases ha⟩
  | fwdAck type k last data =>
      have hns : ¬(s.view t).Still := by
        intro h0
        have := h0.2 _ (by rw [hn]; exact List.mem_cons_self)
        cases this
      obtain h0 | ⟨e, p, he, hf⟩ := hs.safe.phase
      · exact absurd (h0 t) hns
      have ht : t ∈ p.tiles := by
        by_contra ht
        exact hns (hf.still t ht)
      rcases hf.due t ht with ⟨-, hack⟩ | hx
      · have := hack _ (by rw [hn]; exact List.mem_cons_self)
        cases this
      have htype : type = p.type := by
        rcases hx.head hn rfl with ⟨k', d', heq⟩ | ⟨⟨k', d', heq⟩, -⟩
        · exact (Noc3.fwdAck.inj heq).1
        · exact (Noc3.fwdAck.inj heq).1
      have hmesi (hp : type ≠ .inv) : (s.l2.lines.line e.way).mesi = .e ∨ (s.l2.lines.line e.way).mesi = .i := by
        obtain ⟨o, -, h⟩ := hf.owner (htype ▸ hp)
        exact h.imp And.left id
      obtain ⟨c, hc⟩ := csFwdAck_isSome hmesi last
        ((s.l2.lines.line e.way).subline.getLsbD k.toNat && data.isSome) ((s.l2.lines.line e.way).owner == 1)
      refine ⟨Option.isSome_iff_exists.1 ?_, fun _ => ⟨e, he, hf.waits, hf.notGuard, hf.way, hf.valid⟩⟩
      simp [System.answer, hm, CacheSet.answer, he, CacheSet.fwdAck, hc]

end System

end OpenPiton.Coherence
