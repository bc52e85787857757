import OpenPiton.Router.Stuck
import OpenPiton.Lib.Fair
import Mathlib.Algebra.Order.BigOperators.Group.Finset
import Mathlib.Data.Fintype.BigOperators
import Mathlib.Order.Filter.AtTopBot.Basic

namespace OpenPiton.Router

instance : Fintype Port where
  elems := {.n, .e, .s, .w, .p}
  complete q := by cases q <;> decide

theorem Mesh.site_finite (m : Mesh) : Finite m.Site := by
  apply Finite.of_injective fun t : m.Site => (t.1.x.toFin, t.1.y.toFin)
  rintro ⟨⟨x, y⟩, _⟩ ⟨⟨x', y'⟩, _⟩ he
  obtain ⟨hx, hy⟩ := Prod.ext_iff.mp he
  obtain rfl : x = x' := BitVec.toFin_inj.mp hx
  obtain rfl : y = y' := BitVec.toFin_inj.mp hy
  rfl

noncomputable instance (m : Mesh) : Fintype m.Site := @Fintype.ofFinite _ m.site_finite

namespace Traffic

variable {p : NodeParams} {s : Traffic p} {waiting : Port → List p.Flit} {o q : Port}

/-- The flits in an input block with their places. -/
def pending (s : Traffic p) (q : Port) : List (p.Flit × Framed.Place p.Flit) :=
  (Framed.places p.lengthFlit (s.arrived q)).drop (s.departed q).length

namespace Wormhole

theorem pending_sending (h : s.Wormhole waiting) (hv : s.node.validOut o = true) :
    ∃ rest, s.pending (s.node.source o) = ((s.sending o).flit, (s.sending o).place) :: rest := by
  obtain ⟨hlt, hget⟩ := List.getElem?_eq_some_iff.mp (h.places_sending hv)
  exact ⟨_, by rw [pending, List.drop_eq_getElem_cons hlt, hget]⟩

/-- A place of a flit that was sent is one of those that came in. -/
theorem mem_places_arrived (h : s.Wormhole waiting) {e : Sent p} (he : e ∈ s.log) :
    (e.flit, e.place) ∈ Framed.places p.lengthFlit (s.arrived e.input) := by
  obtain ⟨rest, hrest⟩ := h.places_arrived e.input
  rw [hrest]
  exact List.mem_append_left _ (h.mem_places he)

theorem pending_step (h : s.Wormhole waiting) (i : NodeIn p) (q : Port) :
    (s.step i).pending q = (s.pending q).drop (if s.node.thanksAll q then 1 else 0) ++
      (i.dataIn q).toList.map fun f => (f, Framed.next p.lengthFlit (Framed.cursor p.lengthFlit (s.arrived q)) f) := by
  have harr : (s.step i).arrived q = s.arrived q ++ (i.dataIn q).toList := rfl
  have hplaces : Framed.places p.lengthFlit (s.arrived q ++ (i.dataIn q).toList) =
      Framed.places p.lengthFlit (s.arrived q) ++
        (i.dataIn q).toList.map fun f => (f, Framed.next p.lengthFlit (Framed.cursor p.lengthFlit (s.arrived q)) f) := by
    cases i.dataIn q with
    | none => simp
    | some f => exact Framed.places_snoc
  have hlen : ((s.step i).departed q).length = (s.departed q).length + if s.node.thanksAll q then 1 else 0 := by
    rw [h.departed_step, List.length_append]
    cases s.node.thanksAll q <;> rfl
  have hle : (s.departed q).length + (if s.node.thanksAll q then 1 else 0) ≤
      (Framed.places p.lengthFlit (s.arrived q)).length := by
    rw [Framed.length_places]
    cases hq : s.node.thanksAll q with
    | false =>
        rw [h.arrived, List.length_append]
        exact Nat.le_add_right _ _
    | true =>
        obtain ⟨o, hv, rfl⟩ := (s.node.thanksAll_iff q).mp hq
        obtain ⟨rest, hrest⟩ := h.front (s.node.validOut_spec hv).1
        rw [h.arrived, hrest, List.length_append, List.length_cons, if_pos rfl]
        omega
  rw [pending, harr, hplaces, hlen, List.drop_append_of_le_length hle, ← List.drop_drop, pending]

end Wormhole

end Traffic

namespace Net

variable {m : Mesh} {offsetLen : Nat} (s : Net m offsetLen) (i : NetIn m offsetLen)

/-- What comes in from outside is within the credits, and its packets leave the mesh. -/
structure Admissible : Prop where
  within : s.WithinCredit i
  admits : ∀ t q flit, m.behind t q = none → i.dataIn t q = some flit →
    m.Admits (header (Framed.next (m.params offsetLen t).lengthFlit
      (Framed.cursor (m.params offsetLen t).lengthFlit ((s t).arrived q)) flit).head)

/-- How many routers a flit has in front of it, at a tile. -/
def cost (t : m.Site) (pl : Framed.Place (BitVec (64 * 2 ^ offsetLen))) : Nat := m.dist (header pl.head) t.1 + 1

def workAt (c : m.Site × Port) : Nat := (((s c.1).pending c.2).map fun x => cost c.1 x.2).sum

variable {s i} {waiting : m.Site → Port → List (BitVec (64 * 2 ^ offsetLen))} {t t' : m.Site} {q o : Port}

namespace Sound

theorem places_arrived (h : s.Sound waiting) (hb : m.behind t o = some t') :
    Framed.places (m.params offsetLen t').lengthFlit ((s t').arrived o.opposite) =
      ((s t).sentTo o).map fun e => (e.flit, e.place) := by
  rw [h.arrived_eq hb]
  exact (h.wormhole t).places_sentTo o

theorem admitted_step (h : s.Sound waiting) (ha : s.Admitted) (hi : s.Admissible i) : (s.step i).Admitted := by
  intro t q x hx
  cases hb : m.behind t q with
  | none =>
      have harr : ((s.step i) t).arrived q = (s t).arrived q ++ (i.dataIn t q).toList :=
        congrArg (fun d => (s t).arrived q ++ Option.toList d) (dataIn_of_none hb)
      rw [harr] at hx
      cases hd : i.dataIn t q with
      | none =>
          rw [hd, Option.toList_none, List.append_nil] at hx
          exact ha t q x hx
      | some f =>
          rw [hd, Option.toList_some, Framed.places_snoc] at hx
          rcases List.mem_append.mp hx with hold | hnew
          · exact ha t q x hold
          · rw [List.mem_singleton.mp hnew]
            exact hi.admits t q f hb hd
  | some t' =>
      have hb' := Mesh.behind_opposite hb
      have hplaces := (h.step hi.within).places_arrived hb'
      rw [Port.opposite_opposite] at hplaces
      rw [hplaces] at hx
      obtain ⟨e, he, rfl⟩ := List.mem_map.mp hx
      rcases List.mem_append.mp (List.mem_filter.mp he).1 with hold | hnew
      · exact ha t' e.input _ ((h.wormhole t').mem_places_arrived hold)
      · obtain ⟨o, ho, rfl⟩ := List.mem_map.mp hnew
        exact ha t' _ _ (List.mem_of_getElem? ((h.wormhole t').places_sending (List.mem_filter.mp ho).2))

/-- A flit that comes over a link has the place there that it was sent with. -/
theorem next_arrived (h : s.Sound waiting) (hc : s.WithinCredit i) (hb : m.behind t o = some t')
    (hv : (s t).node.validOut o = true) :
    Framed.next (m.params offsetLen t').lengthFlit
      (Framed.cursor (m.params offsetLen t').lengthFlit ((s t').arrived o.opposite)) ((s t).node.dataOut o) =
        ((s t).sending o).place := by
  have hnew := (h.step hc).places_arrived hb
  have hsent : ((s.step i) t).sentTo o = (s t).sentTo o ++ _ := Traffic.sentTo_step (s.inputs i t) o
  have harr : ((s.step i) t').arrived o.opposite = (s t').arrived o.opposite ++ ((s.inputs i t').dataIn o.opposite).toList :=
    rfl
  rw [hsent, harr, dataIn_opposite hb, Node.leaving, if_pos hv, if_pos hv, Option.toList_some, List.map_append,
    ← h.places_arrived hb] at hnew
  have hlast := List.append_cancel_left (Framed.places_snoc.symm.trans hnew)
  exact congrArg Prod.snd (List.head_eq_of_cons_eq hlast)

end Sound

section Work

/-- What the flits that leave a port's block cost there. -/
def popped (s : Net m offsetLen) (c : m.Site × Port) : Nat :=
  ∑ o, if (s c.1).node.validOut o = true ∧ (s c.1).node.source o = c.2 then cost c.1 ((s c.1).sending o).place else 0

/-- What a flit costs at the router that it goes on to. -/
def forwarded (s : Net m offsetLen) (c : m.Site × Port) : Nat :=
  (m.behind c.1 c.2).elim 0 fun t' =>
    if (s c.1).node.validOut c.2 then cost t' ((s c.1).sending c.2).place else 0

/-- The port at the other end of a link, and a port to the outside itself. -/
def facing (c : m.Site × Port) : m.Site × Port := (m.behind c.1 c.2).elim c fun t' => (t', c.2.opposite)

theorem facing_of_behind (h : m.behind t q = some t') : facing (t, q) = (t', q.opposite) := by
  rw [facing, h, Option.elim_some]

theorem facing_of_none (h : m.behind t q = none) : facing (t, q) = (t, q) := by
  rw [facing, h, Option.elim_none]

theorem facing_involutive : Function.Involutive (facing (m := m)) := by
  rintro ⟨t, q⟩
  cases h : m.behind t q with
  | none => rw [facing_of_none h, facing_of_none h]
  | some t' => rw [facing_of_behind h, facing_of_behind (Mesh.behind_opposite h), Port.opposite_opposite]

namespace Sound

theorem popped_quiet (hq : (s t).node.thanksAll q = false) : s.popped (t, q) = 0 := by
  apply Finset.sum_eq_zero
  intro o _
  refine if_neg fun ho => ?_
  rw [((s t).node.thanksAll_iff q).mpr ⟨o, ho⟩] at hq
  cases hq

theorem popped_served (h : s.Sound waiting) (hv : (s t).node.validOut o = true) :
    s.popped (t, (s t).node.source o) = cost t ((s t).sending o).place := by
  have hone : s.popped (t, (s t).node.source o) = _ := Finset.sum_eq_single o (fun o' _ hne => if_neg fun ho => ?_)
    fun hno => absurd (Finset.mem_univ o) hno
  · rw [hone, if_pos ⟨hv, rfl⟩]
  · exact hne ((h.wormhole t).validOut_inj ho.1 hv ho.2)

theorem work_drop (h : s.Sound waiting) (t : m.Site) (q : Port) :
    ((((s t).pending q).drop (if (s t).node.thanksAll q then 1 else 0)).map fun x => cost t x.2).sum + s.popped (t, q) =
      s.workAt (t, q) := by
  cases hq : (s t).node.thanksAll q with
  | false =>
      rw [popped_quiet hq]
      rfl
  | true =>
      obtain ⟨o, hv, rfl⟩ := ((s t).node.thanksAll_iff q).mp hq
      obtain ⟨rest, hrest⟩ := (h.wormhole t).pending_sending hv
      rw [h.popped_served hv, workAt, hrest, if_pos rfl, List.drop_one, List.tail_cons, List.map_cons, List.sum_cons]
      exact Nat.add_comm _ _

/-- The work at a port goes down by what leaves it and up by what comes in over its link. -/
theorem work_step (h : s.Sound waiting) (hc : s.WithinCredit i)
    (hsilent : ∀ t q, m.behind t q = none → i.dataIn t q = none) (c : m.Site × Port) :
    (s.step i).workAt c + s.popped c = s.workAt c + s.forwarded (facing c) := by
  obtain ⟨t, q⟩ := c
  have hpending := (h.wormhole t).pending_step (s.inputs i t) q
  have hwork : (s.step i).workAt (t, q) = ((((s.step i) t).pending q).map fun x => cost t x.2).sum := rfl
  have hstep : ((s.step i) t).pending q = ((s t).step (s.inputs i t)).pending q := rfl
  rw [hwork, hstep, hpending, List.map_append, List.sum_append, Nat.add_right_comm, h.work_drop]
  refine congrArg (s.workAt (t, q) + ·) ?_
  cases hb : m.behind t q with
  | none =>
      rw [dataIn_of_none hb, hsilent t q hb, facing_of_none hb, forwarded, hb]
      rfl
  | some t' =>
      have hb' := Mesh.behind_opposite hb
      rw [dataIn_of_behind hb, facing_of_behind hb, forwarded, hb', Option.elim_some, Node.leaving]
      cases hv : (s t').node.validOut q.opposite with
      | false => rfl
      | true =>
          have hnext := h.next_arrived hc hb' hv
          rw [Port.opposite_opposite] at hnext
          simp only [if_true, Option.toList_some, List.map_cons, List.map_nil, List.sum_cons, List.sum_nil, Nat.add_zero]
          exact congrArg (cost t) hnext

/-- A flit that leaves a router has fewer in front of it. -/
theorem forwarded_lt (h : s.Sound waiting) (ha : s.Admitted) (t : m.Site) (o : Port) :
    s.forwarded (t, o) + ((s t).node.validOut o).toNat ≤
      if (s t).node.validOut o = true then cost t ((s t).sending o).place else 0 := by
  rw [forwarded]
  cases hv : (s t).node.validOut o with
  | false => cases m.behind t o <;> simp
  | true =>
      simp only [if_true, Bool.toNat_true]
      cases hb : m.behind t o with
      | none =>
          rw [Option.elim_none, cost]
          omega
      | some t' =>
          have hadm := ha t _ _ (List.mem_of_getElem? ((h.wormhole t).places_sending hv))
          have hreq : m.Requests (header ((s t).sending o).place.head) t.1 o := (h.wormhole t).requests_served hv
          have hon := Mesh.onward_of_requests (c := (t, o)) hreq hb
          have hdist := Mesh.dist_onward hadm hon
          rw [Option.elim_some, cost, cost]
          dsimp only at hdist
          omega

theorem sum_popped (s : Net m offsetLen) :
    ∑ c : m.Site × Port, s.popped c =
      ∑ c : m.Site × Port, if (s c.1).node.validOut c.2 = true then cost c.1 ((s c.1).sending c.2).place else 0 := by
  rw [Fintype.sum_prod_type, Fintype.sum_prod_type]
  refine Finset.sum_congr rfl fun t _ => ?_
  simp only [popped]
  rw [Finset.sum_comm]
  refine Finset.sum_congr rfl fun o _ => ?_
  by_cases hv : (s t).node.validOut o = true <;> simp [hv]

/-- In a cycle without arrivals from outside the work goes down by the flits that move. -/
theorem total_step (h : s.Sound waiting) (ha : s.Admitted)
    (hsilent : ∀ t q, m.behind t q = none → i.dataIn t q = none) :
    ∑ c, (s.step i).workAt c + ∑ c : m.Site × Port, ((s c.1).node.validOut c.2).toNat ≤ ∑ c, s.workAt c := by
  have hc : s.WithinCredit i := fun t q hb hd => by
    rw [hsilent t q hb] at hd
    cases hd
  have hbalance : ∑ c, (s.step i).workAt c + ∑ c, s.popped c = ∑ c, s.workAt c + ∑ c, s.forwarded c := by
    rw [← Finset.sum_add_distrib, Finset.sum_congr rfl fun c _ => h.work_step hc hsilent c, Finset.sum_add_distrib]
    exact congrArg (_ + ·) (Equiv.sum_comp facing_involutive.toPerm s.forwarded)
  have hmoves : ∑ c, s.forwarded c + ∑ c : m.Site × Port, ((s c.1).node.validOut c.2).toNat ≤ ∑ c, s.popped c := by
    rw [sum_popped, ← Finset.sum_add_distrib]
    exact Finset.sum_le_sum fun c _ => h.forwarded_lt ha c.1 c.2
  omega

end Sound

end Work

/-- Nothing comes in from outside. -/
def Silent (i : NetIn m offsetLen) : Prop := ∀ t q, m.behind t q = none → i.dataIn t q = none

def Still (s : Net m offsetLen) : Prop := ∀ t o, (s t).node.validOut o = false

/-- What is in the blocks, by what came in and what left. -/
def waitingOf (s : Net m offsetLen) (t : m.Site) (q : Port) : List (BitVec (64 * 2 ^ offsetLen)) :=
  ((s t).arrived q).drop ((s t).departed q).length

theorem Silent.within (hi : Silent i) (s : Net m offsetLen) : s.WithinCredit i := by
  intro t q hb hd
  rw [hi t q hb] at hd
  cases hd

theorem Silent.admissible (hi : Silent i) (s : Net m offsetLen) : s.Admissible i where
  within := hi.within s
  admits t q f hb hd := by
    rw [hi t q hb] at hd
    cases hd

namespace Still

theorem thanksAll_eq (hs : s.Still) (t : m.Site) (q : Port) : (s t).node.thanksAll q = false := by
  rw [← Bool.not_eq_true, Node.thanksAll_iff]
  rintro ⟨o, hv, -⟩
  rw [hs t o] at hv
  cases hv

theorem dataIn_eq (hs : s.Still) (hi : Silent i) (t : m.Site) (q : Port) : (s.inputs i t).dataIn q = none := by
  cases hb : m.behind t q with
  | none => rw [dataIn_of_none hb, hi t q hb]
  | some t' => rw [dataIn_of_behind hb, Node.leaving, hs t' q.opposite, if_neg Bool.false_ne_true]

theorem departed_eq (hs : s.Still) (t : m.Site) (q : Port) : ((s.step i) t).departed q = (s t).departed q :=
  Traffic.departed_quiet (s.inputs i t) (hs.thanksAll_eq t q)

theorem waiting_eq (hs : s.Still) (hi : Silent i) (t : m.Site) (q : Port) :
    (s t).nextWaiting (s.inputs i t) (waiting t) q = waiting t q := by
  rw [Traffic.Wormhole.waiting_quiet (hs.thanksAll_eq t q), hs.dataIn_eq hi, Option.toList_none, List.append_nil]

/-- A flit that waits for an output has it planned after a cycle in which nothing moves. -/
theorem planned_step (hs : s.Still) (h : s.Sound waiting) (hi : Silent i)
    (hb : ((s.step i) t).Bound (waiting t) q o) : (((s.step i) t).node.outputCtl o).plannedF = true := by
  have hstep := (h.wormhole t).step (h.within (hi.within s) t)
  rcases hb with hbusy | ⟨hl, f, rest, hw, hr⟩
  · exact (hstep.held q o hbusy).1
  · have hl' : (s t).left q = 0 := by
      rw [Traffic.left, ← hs.departed_eq (i := i)]
      exact hl
    exact Node.planned_step _ (hs t o) (.inr ((h.wormhole t).routeReq_of_header hl' hw hr))

theorem full_of_no_space (h : s.Sound waiting) (hb : m.behind t o = some t')
    (hvalid : ((s t).node.space o).validF = false) (hyummy : ((s t').node.nib o.opposite).yummyOutF = false)
    (hspc : ((s t).node.space o).spcAvail = false) : waiting t' o.opposite ≠ [] := by
  have hcredits := h.credits hb
  have hisOne : ((s t).node.space o).isOneF = true ↔ _ := (h.link t o t' hb).space.isOne_iff
  have hisTwo : ((s t).node.space o).isTwoOrMoreF = true ↔ _ := (h.link t o t' hb).space.isTwo_iff
  rw [SpaceAvail.spcAvail, hvalid, Bool.not_false, Bool.and_true, Bool.or_eq_false_iff, Bool.or_eq_false_iff] at hspc
  obtain ⟨⟨htwo, hback⟩, hone⟩ := hspc
  rw [← Bool.not_eq_true, hisTwo, not_le] at htwo
  rw [← Bool.not_eq_true, hisOne] at hone
  intro hempty
  rw [hback, hvalid, hyummy, hempty] at hcredits
  have hzero : ((s t).node.space o).countF = outLink.bufferSize := hcredits
  change ((s t).node.space o).countF < 2 at htwo
  rw [hzero] at htwo
  exact absurd htwo (by decide)

/-- A cycle after the last flit moved nothing is on its way to a block or back, so a link without space
has a block that holds flits. -/
theorem settled_step (hs : s.Still) (hs' : (s.step i).Still) (hi : Silent i) (h : s.Sound (s.step i).waitingOf)
    (h' : (s.step i).Sound (s.step i).waitingOf)
    (hexit : ∀ t o, m.behind t o = none → (((s.step i) t).node.space o).spcAvail = true) :
    (s.step i).Settled (s.step i).waitingOf where
  still := hs'
  planned _ _ _ hb := hs.planned_step h hi hb
  full t o t' hb hspc := full_of_no_space h' hb (hs t o) (hs.thanksAll_eq t' o.opposite) hspc
  exit := hexit

end Still

theorem Sound.waiting_eq (h : s.Sound waiting) : waiting = s.waitingOf := by
  funext t q
  rw [waitingOf, (h.wormhole t).arrived, List.drop_left]

/-- What holds at the start of a run without arrivals, and in every state of it. -/
structure Draining (s : Net m offsetLen) : Prop where
  sound : s.Sound s.waitingOf
  admitted : s.Admitted
  whole : s.Whole
  bounded : ∀ t o, ((s t).node.space o).Bounded outLink

theorem Draining.step (h : s.Draining) (hi : Silent i) : (s.step i).Draining where
  sound := by
    have hs := h.sound.step (hi.within s)
    rw [hs.waiting_eq] at hs
    exact hs
  admitted := h.sound.admitted_step h.admitted (hi.admissible s)
  whole t q hb := by
    have harr : ((s.step i) t).arrived q = (s t).arrived q := by
      change (s t).arrived q ++ ((s.inputs i t).dataIn q).toList = _
      rw [dataIn_of_none hb, hi t q hb, Option.toList_none, List.append_nil]
    rw [harr]
    exact h.whole t q hb
  bounded t o := (h.bounded t o).step _ _

theorem bounded_of_reaches (h : Machine.Reaches Init Net.step Admissible s) (t : m.Site) (o : Port) :
    ((s t).node.space o).Bounded outLink := by
  refine h.invariant (P := fun s => ∀ t o, ((s t).node.space o).Bounded outLink) ?_ ?_ t o
  · intro s hs t o
    obtain ⟨mem, ht⟩ := hs t
    rw [ht]
    exact .reset
  · exact fun s i hs _ t o => (hs t o).step _ _

theorem admitted_of_reaches (h : Machine.Reaches Init Net.step Admissible s) : (∃ waiting, s.Sound waiting) ∧ s.Admitted := by
  refine h.invariant (P := fun s => (∃ waiting, s.Sound waiting) ∧ s.Admitted) ?_ ?_
  · intro s hs
    refine ⟨⟨_, Sound.init hs⟩, fun t q x hx => ?_⟩
    obtain ⟨mem, ht⟩ := hs t
    rw [ht] at hx
    cases hx
  · rintro s i ⟨⟨waiting, hs⟩, ha⟩ hi
    exact ⟨⟨_, hs.step hi.within⟩, hs.admitted_step ha hi⟩

theorem Draining.of_reaches (h : Machine.Reaches Init Net.step Admissible s) (hw : s.Whole) : s.Draining where
  sound := by
    obtain ⟨⟨waiting, hs⟩, -⟩ := admitted_of_reaches h
    rw [hs.waiting_eq] at hs
    exact hs
  admitted := (admitted_of_reaches h).2
  whole := hw
  bounded := bounded_of_reaches h

section Run

variable {is : Nat → NetIn m offsetLen}

theorem draining_trace (h : s.Draining) (hsilent : ∀ n, Silent (is n)) :
    ∀ n, (Machine.trace Net.step s is n).Draining
  | 0 => h
  | n + 1 => (draining_trace h hsilent n).step (hsilent n)

/-- The work does not go up, so from some cycle on nothing moves. -/
theorem eventually_still (h : s.Draining) (hsilent : ∀ n, Silent (is n)) :
    ∃ N, ∀ n, N ≤ n → (Machine.trace Net.step s is n).Still := by
  let work (n : Nat) : Nat := ∑ c, (Machine.trace Net.step s is n).workAt c
  have hstep : ∀ n, work (n + 1) +
      ∑ c : m.Site × Port, ((Machine.trace Net.step s is n c.1).node.validOut c.2).toNat ≤ work n := fun n =>
    (draining_trace h hsilent n).sound.total_step (draining_trace h hsilent n).admitted (hsilent n)
  have hmono : Antitone work := antitone_nat_of_succ_le fun n => (Nat.le_add_right _ _).trans (hstep n)
  refine ⟨Function.argmin work, fun n hn t o => ?_⟩
  have hle : work n ≤ work (Function.argmin work) := hmono hn
  have hmin : work (Function.argmin work) ≤ work (n + 1) := Function.argmin_le work (n + 1)
  have hzero : ∑ c : m.Site × Port, ((Machine.trace Net.step s is n c.1).node.validOut c.2).toNat = 0 := by
    have := hstep n
    omega
  have hnone := (Finset.sum_eq_zero_iff.mp hzero) (t, o) (Finset.mem_univ _)
  exact Bool.toNat_eq_zero.mp hnone

/-- An output to the outside that gets its yummies has space from some cycle on, when nothing moves. -/
theorem eventually_space (h : s.Draining) (hsilent : ∀ n, Silent (is n)) {N : Nat}
    (hstill : ∀ n, N ≤ n → (Machine.trace Net.step s is n).Still) {t : m.Site} {o : Port} (hb : m.behind t o = none)
    (hserved : ∀ n, ((Machine.trace Net.step s is n t).node.space o).spcAvail = false →
      ∃ k, n ≤ k ∧ (is k).yummyIn t o = true) :
    ∃ M, ∀ n, M ≤ n → ((Machine.trace Net.step s is n t).node.space o).spcAvail = true := by
  have hkeep : ∀ M, N + 1 ≤ M → ((Machine.trace Net.step s is M t).node.space o).spcAvail = true →
      ∀ n, M ≤ n → ((Machine.trace Net.step s is n t).node.space o).spcAvail = true := by
    intro M hM hspc n hn
    induction n, hn using Nat.le_induction with
    | base => exact hspc
    | succ n hn ih =>
        obtain ⟨n, rfl⟩ := Nat.exists_eq_add_of_le' (show 1 ≤ n by omega)
        have hvalid : ((Machine.trace Net.step s is (n + 1) t).node.space o).validF = false := hstill n (by omega) t o
        have hnext := ((draining_trace h hsilent (n + 1)).bounded t o).spcAvail_step hvalid ih
          (((Machine.trace Net.step s is (n + 1)).inputs (is (n + 1)) t).yummyIn o)
        rw [← hstill (n + 1) (by omega) t o] at hnext
        exact hnext
  by_cases hspc : ((Machine.trace Net.step s is (N + 1) t).node.space o).spcAvail = true
  · exact ⟨N + 1, hkeep _ le_rfl hspc⟩
  · obtain ⟨k, hk, hy⟩ := hserved (N + 1) (Bool.not_eq_true _ ▸ hspc)
    refine ⟨k + 1, hkeep _ (by omega) ?_⟩
    have hnext : ((Machine.trace Net.step s is (k + 1) t).node.space o) =
        ((Machine.trace Net.step s is k t).node.space o).step outLink
          ((Machine.trace Net.step s is k t).node.validOut o)
          (((Machine.trace Net.step s is k).inputs (is k) t).yummyIn o) := rfl
    rw [hnext, yummyIn_of_none hb, hy]
    exact SpaceAvail.Bounded.spcAvail_yummy _ _ _

/-- Once no packet is under way from outside and none comes in, all blocks become empty. -/
theorem mesh_drains (h : s.Draining) (hsilent : ∀ n, Silent (is n))
    (hserved : ∀ n t o, m.behind t o = none → ((Machine.trace Net.step s is n t).node.space o).spcAvail = false →
      ∃ k, n ≤ k ∧ (is k).yummyIn t o = true) :
    ∃ N, ∀ n, N ≤ n → ∀ t q, (Machine.trace Net.step s is n).waitingOf t q = [] := by
  obtain ⟨N, hstill⟩ := eventually_still h hsilent
  have hspace : ∀ c : m.Site × Port, ∃ M, ∀ n, M ≤ n → m.behind c.1 c.2 = none →
      ((Machine.trace Net.step s is n c.1).node.space c.2).spcAvail = true := by
    intro c
    cases hb : m.behind c.1 c.2 with
    | none =>
        obtain ⟨M, hM⟩ := eventually_space h hsilent hstill hb fun n => hserved n c.1 c.2 hb
        exact ⟨M, fun n hn _ => hM n hn⟩
    | some t' => exact ⟨0, fun _ _ hno => by cases hno⟩
  choose M hM using hspace
  refine ⟨max N (Finset.univ.sup M) + 1, fun n hn t q => ?_⟩
  obtain ⟨n, rfl⟩ := Nat.exists_eq_add_of_le' (show 1 ≤ n by omega)
  have hs := hstill n (by omega)
  have hd := draining_trace h hsilent n
  have hd' := draining_trace h hsilent (n + 1)
  have hw : (Machine.trace Net.step s is n).Sound (Machine.trace Net.step s is (n + 1)).waitingOf := by
    have hnext := (hd.sound.step ((hsilent n).within _)).waiting_eq
    have hsame : (Machine.trace Net.step s is (n + 1)).waitingOf = (Machine.trace Net.step s is n).waitingOf := by
      refine hnext.symm.trans ?_
      funext t q
      exact hs.waiting_eq (hsilent n) t q
    rw [hsame]
    exact hd.sound
  have hsettled := hs.settled_step (hstill (n + 1) (by omega)) (hsilent n) hw hd'.sound fun t o hb => by
    have := Finset.le_sup (f := M) (Finset.mem_univ (t, o))
    exact hM (t, o) (n + 1) (by omega) hb
  exact hd'.sound.empty_of_settled hd'.admitted hd'.whole hsettled t q

end Run

end Net

namespace Tagged

variable {m : Mesh} {offsetLen : Nat} {s : Tagged m offsetLen} {is : Nat → NetIn m offsetLen}

/-- What comes in is within the credits and leaves the mesh again. -/
def Admissible (s : Tagged m offsetLen) (i : NetIn m offsetLen) : Prop := s.net.Admissible i

theorem net_trace (s : Tagged m offsetLen) (is : Nat → NetIn m offsetLen) :
    ∀ n, (Machine.trace Tagged.step s is n).net = Machine.trace Net.step s.net is n
  | 0 => rfl
  | n + 1 => congrArg (Net.step · (is n)) (net_trace s is n)

theorem net_reaches (h : Machine.Reaches Init Tagged.step Admissible s) :
    Machine.Reaches Net.Init Net.step Net.Admissible s.net := by
  induction h with
  | start hs => exact .start hs.1
  | next _ hi ih => exact .next ih hi

theorem injected_trace (hsilent : ∀ n, Net.Silent (is n)) {t : m.Site} {q : Port} (hb : m.behind t q = none) :
    ∀ n, (Machine.trace Tagged.step s is n).injected t q = s.injected t q
  | 0 => rfl
  | n + 1 => by
      have harr : ((Machine.trace Tagged.step s is (n + 1)).net t).arrived q =
          ((Machine.trace Tagged.step s is n).net t).arrived q := by
        change _ ++ (((Machine.trace Tagged.step s is n).net.inputs (is n) t).dataIn q).toList = _
        rw [Net.dataIn_of_none hb, hsilent n t q hb, Option.toList_none, List.append_nil]
      rw [injected, harr]
      exact injected_trace hsilent hb n

theorem traced_trace {waiting : m.Site → Port → List (BitVec (64 * 2 ^ offsetLen))} (h : s.Traced waiting)
    (hsilent : ∀ n, Net.Silent (is n)) : ∀ n, ∃ waiting, (Machine.trace Tagged.step s is n).Traced waiting
  | 0 => ⟨_, h⟩
  | n + 1 => by
      obtain ⟨waiting, hn⟩ := traced_trace h hsilent n
      exact ⟨_, hn.step ((hsilent n).within _)⟩

end Tagged

open Tagged in
/-- No packet is caught in the mesh: from any state of a run whose packets leave the mesh, once the packets
under way from outside are whole and no more come in, and where the ports to the outside get a yummy
when they lack space, the input blocks all become empty, and then every flow has left whole and in
order where its headers ask. -/
theorem eventually_delivered {m : Mesh} {offsetLen : Nat} {s : Tagged m offsetLen}
    (hr : Machine.Reaches Tagged.Init Tagged.step Tagged.Admissible s) (hwhole : s.net.Whole)
    {is : Nat → NetIn m offsetLen} (hsilent : ∀ n, Net.Silent (is n))
    (hserved : ∀ n t o, m.behind t o = none →
      (((Machine.trace Tagged.step s is n).net t).node.space o).spcAvail = false → ∃ k, n ≤ k ∧ (is k).yummyIn t o = true) :
    ∃ N, ∀ n, N ≤ n →
      (∀ t q, (((Machine.trace Tagged.step s is n).net t).node.nib q).elementsInArrayF = 0) ∧
      ∀ hd (ha : m.Admits hd) exit, finalPort hd.finalBits = some exit → ∀ c : m.Site × Port, m.behind c.1 c.2 = none →
        flow hd c ((Machine.trace Tagged.step s is n).itemsTo ⟨m.dest hd, ha.routable.dest_mem⟩ exit) =
          flow hd c (s.injected c.1 c.2) := by
  have hnet := net_reaches hr
  obtain ⟨N, hN⟩ := Net.mesh_drains (Net.Draining.of_reaches hnet hwhole) hsilent fun n t o hb hspc => by
    rw [← net_trace] at hspc
    exact hserved n t o hb hspc
  obtain ⟨waiting, htraced⟩ := Traced.of_reaches (hr.mono fun _ _ hi => hi.within)
  refine ⟨N, fun n hn => ?_⟩
  obtain ⟨waiting', hn'⟩ := traced_trace htraced hsilent n
  have hempty : ∀ t q, (((Machine.trace Tagged.step s is n).net t).node.nib q).elementsInArrayF = 0 := by
    intro t q
    rw [((hn'.sound.wormhole t).nib q).elements_eq, hn'.sound.waiting_eq, net_trace, hN n hn t q]
    rfl
  refine ⟨hempty, fun hd ha exit he c hc => ?_⟩
  have hheld : ∀ t q, (Machine.trace Tagged.step s is n).held t q = [] := by
    intro t q
    rw [← List.length_eq_zero_iff, hn'.length_held, hempty]
  have hroute := hn'.flow_route ha he (d := ⟨m.dest hd, ha.routable.dest_mem⟩) rfl _ (.refl : m.OnRoute hd c c) rfl
  rw [itemsIn_of_none hc, injected_trace hsilent hc] at hroute
  rw [hroute]
  simp [hheld, flow]

section Run

open Mesh (twoByTwo)

theorem fromProcessor_admissible : emptyNet.Admissible fromProcessor where
  within := emptyNet_within fromProcessor
  admits t q flit _ hd := by
    obtain ⟨-, he⟩ := Option.ite_none_right_eq_some.mp hd
    have hheader : header (1 <<< 42 : BitVec 64) = eastward := by decide
    cases he
    change twoByTwo.Admits (header (1 <<< 42 : BitVec 64))
    rw [hheader]
    exact eastward_admits

theorem fromProcessor_whole : (emptyNet.step fromProcessor).Whole := by
  intro t q hb
  have harr : ((emptyNet.step fromProcessor) t).arrived q = (fromProcessor.dataIn t q).toList := by
    change [] ++ ((emptyNet.inputs fromProcessor t).dataIn q).toList = _
    rw [Net.dataIn_of_none hb, List.nil_append]
  rw [harr, fromProcessor]
  dsimp only
  split
  · have hlen : (header (1 <<< 42 : BitVec 64)).lengthIn.toNat / 2 ^ 0 = 0 := by decide
    exact hlen
  · rfl

theorem eventually_delivered_one_flit :
    ∃ N, Tagged.flow eastward (corner, .p) ((Machine.trace Tagged.step
        (({ net := emptyNet } : Tagged twoByTwo 0).step fromProcessor)
        (fun _ => { yummyIn := fun _ _ => true }) N).itemsTo ⟨twoByTwo.dest eastward, eastward_admits.routable.dest_mem⟩ .p) =
      Tagged.flow eastward (corner, .p)
        ((({ net := emptyNet } : Tagged twoByTwo 0).step fromProcessor).injected corner .p) := by
  have hr : Machine.Reaches Tagged.Init Tagged.step Tagged.Admissible
      (({ net := emptyNet } : Tagged twoByTwo 0).step fromProcessor) :=
    .next (.start ⟨emptyNet_init, fun _ => rfl⟩) fromProcessor_admissible
  obtain ⟨N, hN⟩ := @eventually_delivered _ _ _ hr fromProcessor_whole (fun _ => { yummyIn := fun _ _ => true })
    (fun _ _ _ _ => rfl) fun n _ _ _ _ => ⟨n, le_rfl, rfl⟩
  exact ⟨N, (hN N le_rfl).2 eastward eastward_admits .p rfl (corner, .p) rfl⟩

end Run

end OpenPiton.Router
