import OpenPiton.Router.Mesh
import OpenPiton.Router.Wormhole

namespace OpenPiton.Router

open Mesh (twoByTwo)

/-- The port of the tile behind that faces this one. -/
def Port.opposite : Port → Port
  | .n => .s
  | .e => .w
  | .s => .n
  | .w => .e
  | .p => .p

@[simp] theorem Port.opposite_opposite (q : Port) : q.opposite.opposite = q := by cases q <;> rfl

namespace Mesh

variable (m : Mesh)

/-- A tile of the mesh. -/
abbrev Site : Type := { t : Tile // m.Contains t }

/-- The router that a port of a tile is connected to; the processor and the edges are outside. -/
def behind (t : m.Site) (q : Port) : Option m.Site :=
  (m.neighbor t.1 q).bind fun t' => if h : m.Contains t' then some ⟨t', h⟩ else none

variable {m}

/-- One step back along a row or a column. -/
theorem coord_pred {a : BitVec 8} {n : Nat} (ha : a ≠ 0) (hlt : a.toNat < n) :
    (a - 1).toNat < n ∧ (a - 1).toNat + 1 ≠ n ∧ a - 1 + 1 = a := by
  refine ⟨?_, ?_, ?_⟩ <;> bv_omega

theorem coord_succ {a : BitVec 8} {n : Nat} (hn : n ≤ 2 ^ 8) (hlt : a.toNat < n) (hne : a.toNat + 1 ≠ n) :
    (a + 1).toNat < n ∧ a + 1 ≠ 0 ∧ a + 1 - 1 = a := by
  refine ⟨?_, ?_, ?_⟩ <;> bv_omega

/-- A neighbor is a tile of the mesh, and has this tile behind the port that faces it. -/
theorem neighbor_spec {t t' : Tile} (ht : m.Contains t) {q : Port} (h : m.neighbor t q = some t') :
    m.Contains t' ∧ m.neighbor t' q.opposite = some t := by
  obtain ⟨hx, hy⟩ := ht
  cases q with
  | p => cases h
  | n =>
      obtain ⟨hne, hs⟩ := Option.ite_none_left_eq_some.mp h
      cases hs
      obtain ⟨hlt, hedge, hback⟩ := coord_pred hne hy
      exact ⟨⟨hx, hlt⟩, (if_neg hedge).trans (congrArg (fun b => some (Tile.mk t.x b)) hback)⟩
  | s =>
      obtain ⟨hne, hs⟩ := Option.ite_none_left_eq_some.mp h
      cases hs
      obtain ⟨hlt, hedge, hback⟩ := coord_succ m.yTiles_le hy hne
      exact ⟨⟨hx, hlt⟩, (if_neg hedge).trans (congrArg (fun b => some (Tile.mk t.x b)) hback)⟩
  | w =>
      obtain ⟨hne, hs⟩ := Option.ite_none_left_eq_some.mp h
      cases hs
      obtain ⟨hlt, hedge, hback⟩ := coord_pred hne hx
      exact ⟨⟨hlt, hy⟩, (if_neg hedge).trans (congrArg (fun b => some (Tile.mk b t.y)) hback)⟩
  | e =>
      obtain ⟨hne, hs⟩ := Option.ite_none_left_eq_some.mp h
      cases hs
      obtain ⟨hlt, hedge, hback⟩ := coord_succ m.xTiles_le hx hne
      exact ⟨⟨hlt, hy⟩, (if_neg hedge).trans (congrArg (fun b => some (Tile.mk b t.y)) hback)⟩

theorem behind_eq_some {t t' : m.Site} {q : Port} : m.behind t q = some t' ↔ m.neighbor t.1 q = some t'.1 := by
  rw [behind, Option.bind_eq_some_iff]
  constructor
  · rintro ⟨u, hu, hs⟩
    obtain ⟨hc, he⟩ := Option.dite_none_right_eq_some.mp hs
    cases he
    exact hu
  · intro h
    exact ⟨t'.1, h, dif_pos t'.2⟩

theorem behind_eq_none {t : m.Site} {q : Port} : m.behind t q = none ↔ m.neighbor t.1 q = none := by
  cases h : m.neighbor t.1 q with
  | none => simp [behind, h]
  | some t' =>
      have hs : m.behind t q = some ⟨t', (neighbor_spec t.2 h).1⟩ := behind_eq_some.mpr h
      simp [hs]

theorem behind_opposite {t t' : m.Site} {q : Port} (h : m.behind t q = some t') :
    m.behind t' q.opposite = some t :=
  behind_eq_some.mpr (neighbor_spec t.2 (behind_eq_some.mp h)).2

@[simp] theorem behind_p (t : m.Site) : m.behind t .p = none := rfl

/-- The links between routers have the buffers of four flits. -/
theorem log2Elements_opposite {t t' : m.Site} {q : Port} (h : m.behind t q = some t') :
    log2Elements q.opposite = outLink.log2 := by
  cases q with
  | p => cases h
  | n | e | s | w => rfl

/-- The parameters of a tile's router; `offsetLen` is that of the network. -/
abbrev params (m : Mesh) (offsetLen : Nat) (t : m.Site) : NodeParams := ⟨offsetLen, m.loc t.1⟩

end Mesh

/-- A flit that an output drives. -/
def Node.leaving {p : NodeParams} (s : Node p) (o : Port) : Option p.Flit :=
  if s.validOut o then some (s.dataOut o) else none

theorem Node.leaving_isSome {p : NodeParams} (s : Node p) (o : Port) : (s.leaving o).isSome = s.validOut o := by
  cases h : s.validOut o <;> simp [leaving, h]

/-- The routers of one of the networks of `chip`. -/
abbrev Net (m : Mesh) (offsetLen : Nat) : Type := (t : m.Site) → Traffic (m.params offsetLen t)

/-- What comes in at the ports without a router behind them. -/
structure NetIn (m : Mesh) (offsetLen : Nat) where
  dataIn : m.Site → Port → Option (BitVec (64 * 2 ^ offsetLen)) := fun _ _ => none
  yummyIn : m.Site → Port → Bool := fun _ _ => false

namespace Net

variable {m : Mesh} {offsetLen : Nat} (s : Net m offsetLen) (i : NetIn m offsetLen)

/-- The wires between the tiles: a port gets what the port that faces it drives. -/
def inputs (t : m.Site) : NodeIn (m.params offsetLen t) where
  dataIn q := (m.behind t q).elim (i.dataIn t q) fun t' => (s t').node.leaving q.opposite
  yummyIn o := (m.behind t o).elim (i.yummyIn t o) fun t' => ((s t').node.nib o.opposite).yummyOutF

def step : Net m offsetLen := fun t => (s t).step (s.inputs i t)

/-- After reset all input blocks are empty. -/
def Init : Prop := ∀ t, (s t).Init

/-- What comes in from outside takes the credits of the ports there. -/
def WithinCredit : Prop :=
  ∀ t q, m.behind t q = none → (i.dataIn t q).isSome = true →
    0 < (s t).credit q + ((s t).node.nib q).yummyOutF.toNat

/-- The link behind an output, with the flits sent on it and those taken from the block at its end. -/
def link (t : m.Site) (o : Port) (t' : m.Site) : CreditLink (BitVec (64 * 2 ^ offsetLen)) where
  space := (s t).node.space o
  nib := (s t').node.nib o.opposite
  sent := ((s t).sentTo o).map Sent.flit
  dequeued := (s t').departed o.opposite

/-- What every run of the network keeps: each router's own invariant, with the flits that wait in its
blocks, and that of each link. -/
structure Sound (waiting : m.Site → Port → List (BitVec (64 * 2 ^ offsetLen))) : Prop where
  wormhole : ∀ t, (s t).Wormhole (waiting t)
  link : ∀ t o t', m.behind t o = some t' → (s.link t o t').Sound outLink

variable {s i} {waiting : m.Site → Port → List (BitVec (64 * 2 ^ offsetLen))} {t t' : m.Site} {o q : Port}

theorem dataIn_of_behind (h : m.behind t q = some t') :
    (s.inputs i t).dataIn q = (s t').node.leaving q.opposite := by
  simp only [inputs, h, Option.elim_some]

theorem dataIn_of_none (h : m.behind t q = none) : (s.inputs i t).dataIn q = i.dataIn t q := by
  simp only [inputs, h, Option.elim_none]

theorem yummyIn_of_behind (h : m.behind t o = some t') :
    (s.inputs i t).yummyIn o = ((s t').node.nib o.opposite).yummyOutF := by
  simp only [inputs, h, Option.elim_some]

theorem yummyIn_of_none (h : m.behind t o = none) : (s.inputs i t).yummyIn o = i.yummyIn t o := by
  simp only [inputs, h, Option.elim_none]

theorem dataIn_opposite (h : m.behind t o = some t') :
    (s.inputs i t').dataIn o.opposite = (s t).node.leaving o := by
  rw [dataIn_of_behind (Mesh.behind_opposite h), Port.opposite_opposite]

theorem flits_step (i : NodeIn (m.params offsetLen t)) (o : Port) :
    (((s t).step i).sentTo o).map Sent.flit = ((s t).sentTo o).map Sent.flit ++ ((s t).node.leaving o).toList := by
  rw [Traffic.sentTo_step, List.map_append, Node.leaving]
  cases (s t).node.validOut o <;> rfl

theorem spcAvail_of_validOut {p : NodeParams} {n : Node p} (hv : n.validOut o = true) :
    (n.space o).spcAvail = true := by
  simp only [Node.validOut, OutputControl.validOut, Bool.and_eq_true] at hv
  exact hv.2

theorem link_fair :
    (s.link t o t').Fair ⟨(s t).node.leaving o, (s t').node.thanksAll o.opposite⟩ where
  valid := by
    intro hv
    rw [Node.leaving_isSome] at hv
    exact spcAvail_of_validOut hv
  thanks := by
    intro hq
    obtain ⟨o', hv, hs⟩ := ((s t').node.thanksAll_iff o.opposite).mp hq
    have hvalid := ((s t').node.validOut_spec hv).1
    rw [hs] at hvalid
    exact hvalid

namespace Sound

/-- A link goes on as one with credits does. -/
theorem link_step (h : s.Sound waiting) (i : NetIn m offsetLen) (hb : m.behind t o = some t') :
    (s.step i).link t o t' =
      (s.link t o t').step outLink ⟨(s t).node.leaving o, (s t').node.thanksAll o.opposite⟩ := by
  have hspace : ((s.step i) t).node.space o =
      ((s t).node.space o).step outLink ((s t).node.leaving o).isSome ((s t').node.nib o.opposite).yummyOutF := by
    rw [Node.leaving_isSome, ← yummyIn_of_behind hb]
    rfl
  have hnib : ((s.step i) t').node.nib o.opposite = ((s t').node.nib o.opposite).step outLink.log2
      ((s t).node.leaving o) ((s t').node.thanksAll o.opposite) := by
    rw [← Mesh.log2Elements_opposite hb, ← dataIn_opposite hb]
    rfl
  have hdeq : ((s.step i) t').departed o.opposite =
      if (s t').node.thanksAll o.opposite then
        (s t').departed o.opposite ++ [((s t').node.nib o.opposite).dataVal]
      else (s t').departed o.opposite := by
    have hd := (h.wormhole t').departed_step (s.inputs i t') o.opposite
    split
    next hq =>
      rw [if_pos hq] at hd
      exact hd
    next hq =>
      rw [if_neg hq, List.append_nil] at hd
      exact hd
  rw [Net.link, hspace, hnib, hdeq, Net.step, flits_step]
  rfl

/-- A link holds the flits that wait at its end. -/
theorem sent_eq (h : s.Sound waiting) (hb : m.behind t o = some t') :
    ((s t).sentTo o).map Sent.flit = (s t').departed o.opposite ++ waiting t' o.opposite := by
  obtain ⟨l, hl, hsent⟩ := (h.link t o t' hb).sent
  have hw := (h.wormhole t').nib o.opposite
  rw [Mesh.log2Elements_opposite hb] at hw
  have he : l = waiting t' o.opposite := hl.contents.symm.trans hw.contents
  rw [← he]
  exact hsent

/-- Every slot of the block at the end of a link is a credit, a flit there or on its way back. -/
theorem credits (h : s.Sound waiting) (hb : m.behind t o = some t') :
    ((s t).node.space o).countF + ((s t).node.space o).yummyF.toNat + ((s t').node.nib o.opposite).yummyOutF.toNat +
      (waiting t' o.opposite).length = outLink.bufferSize + ((s t).node.space o).validF.toNat := by
  rw [← ((h.wormhole t').nib o.opposite).elements_eq]
  exact (h.link t o t' hb).conserved

theorem arrived_eq (h : s.Sound waiting) (hb : m.behind t o = some t') :
    (s t').arrived o.opposite = ((s t).sentTo o).map Sent.flit := by
  rw [h.sent_eq hb, (h.wormhole t').arrived]

/-- The credits of the routers keep the arrivals of each within its own. -/
theorem within (h : s.Sound waiting) (hc : s.WithinCredit i) (t : m.Site) :
    (s t).WithinCredit (s.inputs i t) := by
  intro q hq
  cases hb : m.behind t q with
  | none =>
      rw [dataIn_of_none hb] at hq
      exact hc t q hb hq
  | some t' =>
      have hb' := Mesh.behind_opposite hb
      rw [dataIn_of_behind hb, Node.leaving_isSome] at hq
      have hlt := (h.link t' q.opposite t hb').elements_lt (spcAvail_of_validOut hq)
      have hcredit := (h.wormhole t).credit q
      have hel := ((h.wormhole t).nib q).elements_eq
      have hlog := Mesh.log2Elements_opposite hb'
      rw [Port.opposite_opposite] at hlog
      rw [hlog] at hcredit
      change ((s t).node.nib q.opposite.opposite).elementsInArrayF < 2 ^ outLink.log2 at hlt
      rw [Port.opposite_opposite] at hlt
      omega

theorem step (h : s.Sound waiting) (hc : s.WithinCredit i) :
    (s.step i).Sound fun t => (s t).nextWaiting (s.inputs i t) (waiting t) where
  wormhole t := (h.wormhole t).step (h.within hc t)
  link t o t' hb := by
    rw [h.link_step i hb]
    exact (h.link t o t' hb).step link_fair

theorem init (h : s.Init) : s.Sound fun _ _ => [] where
  wormhole t := Traffic.Wormhole.init (h t)
  link t o t' _ := by
    obtain ⟨mem, ht⟩ := h t
    obtain ⟨mem', ht'⟩ := h t'
    rw [Net.link, ht, ht']
    exact CreditLink.Init.sound ⟨_, rfl⟩

theorem of_reaches (h : Machine.Reaches Init Net.step WithinCredit s) : ∃ waiting, s.Sound waiting :=
  h.invariant (P := fun s => ∃ waiting, s.Sound waiting) (fun _ hs => ⟨_, init hs⟩)
    fun _ _ ⟨_, hs⟩ hc => ⟨_, hs.step hc⟩

end Sound

end Net

section Run

def corner : twoByTwo.Site := ⟨⟨0, 0⟩, by decide⟩

def emptyNet : Net twoByTwo 0 := fun _ => { node := { nib := fun _ => ⟨fun _ => 0, 0, 0, 0, false⟩ } }

/-- The processor of a tile sends a flit to that of the tile in the east. -/
def fromProcessor : NetIn twoByTwo 0 where
  dataIn t q := if t = corner ∧ q = .p then some (1 <<< 42) else none

theorem emptyNet_within (i : NetIn twoByTwo 0) : emptyNet.WithinCredit i :=
  fun _ _ _ _ => Nat.lt_add_right _ (Nat.two_pow_pos _)

theorem emptyNet_init : emptyNet.Init := fun _ => ⟨fun _ _ => 0, rfl⟩

end Run

end OpenPiton.Router
