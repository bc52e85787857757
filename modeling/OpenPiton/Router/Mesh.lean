import OpenPiton.Lib.Counter
import OpenPiton.Router.Route
import Mathlib.Logic.Relation

namespace OpenPiton.Router

/-- The tiles of a chip; their coordinates fit the location inputs of the routers. -/
structure Mesh where
  xTiles : Nat
  yTiles : Nat
  chipId : BitVec CHIP_ID_WIDTH
  xTiles_le : xTiles ≤ 2 ^ XY_WIDTH
  yTiles_le : yTiles ≤ 2 ^ XY_WIDTH

structure Tile where
  x : BitVec XY_WIDTH
  y : BitVec XY_WIDTH
  deriving DecidableEq

/-- An output of a tile's router. -/
abbrev Channel := Tile × Port

namespace Mesh

variable (m : Mesh)

def Contains (t : Tile) : Prop := t.x.toNat < m.xTiles ∧ t.y.toNat < m.yTiles

instance (t : Tile) : Decidable (m.Contains t) := inferInstanceAs (Decidable (_ ∧ _))

/-- The tile behind a port, `none` for the processor and at the edges. -/
def neighbor (t : Tile) : Port → Option Tile
  | .n => if t.y = 0 then none else some ⟨t.x, t.y - 1⟩
  | .s => if t.y.toNat + 1 = m.yTiles then none else some ⟨t.x, t.y + 1⟩
  | .w => if t.x = 0 then none else some ⟨t.x - 1, t.y⟩
  | .e => if t.x.toNat + 1 = m.xTiles then none else some ⟨t.x + 1, t.y⟩
  | .p => none

def loc (t : Tile) : Loc := ⟨t.x, t.y, m.chipId⟩

/-- The outputs that a header in front of an input of the tile's router asks for. -/
def Requests (h : Header) (t : Tile) (q : Port) : Prop := (m.loc t).routeReq h true q = true

instance (h : Header) (t : Tile) (q : Port) : Decidable (m.Requests h t q) :=
  inferInstanceAs (Decidable (_ = _))

/-- The tile a packet is routed to. -/
def dest (h : Header) : Tile :=
  if h.absChipId = m.chipId then ⟨h.absX, h.absY⟩ else ⟨offChipNodeX, offChipNodeY⟩

/-- A packet for a tile of the mesh that leaves there by some port. -/
structure Routable (h : Header) : Prop where
  dest_mem : m.Contains (m.dest h)
  final : (finalPort h.finalBits).isSome = true

/-- The port that the packet leaves by does not lead back into the mesh. -/
def Leaves (h : Header) : Prop := ∀ q, finalPort h.finalBits = some q → m.neighbor (m.dest h) q = none

def distX (h : Header) (t : Tile) : Nat :=
  (t.x.toNat - (m.dest h).x.toNat) + ((m.dest h).x.toNat - t.x.toNat)

def distY (h : Header) (t : Tile) : Nat :=
  (t.y.toNat - (m.dest h).y.toNat) + ((m.dest h).y.toNat - t.y.toNat)

def dist (h : Header) (t : Tile) : Nat := m.distX h t + m.distY h t

/-- The channels that a packet takes from tile to tile. -/
inductive Route (h : Header) : Tile → List Channel → Tile → Prop
  | here (t : Tile) : Route h t [] t
  | hop {t t' u : Tile} {q : Port} {cs : List Channel} : m.Requests h t q → m.neighbor t q = some t' →
      Route h t' cs u → Route h t ((t, q) :: cs) u

/-- A packet that `admits` allows holds the channel `c` while it asks for `c'`. -/
def Depends (admits : Header → Prop) (c c' : Channel) : Prop :=
  ∃ h, admits h ∧ m.Contains c.1 ∧ m.Requests h c.1 c.2 ∧ m.neighbor c.1 c.2 = some c'.1 ∧
    m.Requests h c'.1 c'.2

variable {m} {h : Header} {t t' : Tile} {q : Port}

theorem moreX_iff : (m.loc t).moreX h = true ↔ t.x < (m.dest h).x := by
  by_cases hc : h.absChipId = m.chipId <;> simp [Loc.moreX, Loc.offChip, loc, dest, hc, BitVec.ult_iff_lt]

theorem moreY_iff : (m.loc t).moreY h = true ↔ t.y < (m.dest h).y := by
  by_cases hc : h.absChipId = m.chipId <;> simp [Loc.moreY, Loc.offChip, loc, dest, hc, BitVec.ult_iff_lt]

theorem lessX_iff : (m.loc t).lessX h = true ↔ (m.dest h).x < t.x := by
  by_cases hc : h.absChipId = m.chipId <;> simp [Loc.lessX, Loc.offChip, loc, dest, hc, BitVec.ult_iff_lt]

theorem lessY_iff : (m.loc t).lessY h = true ↔ (m.dest h).y < t.y := by
  by_cases hc : h.absChipId = m.chipId <;> simp [Loc.lessY, Loc.offChip, loc, dest, hc, BitVec.ult_iff_lt]

theorem doneX_iff : (m.loc t).doneX h = true ↔ (m.dest h).x = t.x := by
  by_cases hc : h.absChipId = m.chipId <;> simp [Loc.doneX, Loc.offChip, loc, dest, hc]

theorem doneY_iff : (m.loc t).doneY h = true ↔ (m.dest h).y = t.y := by
  by_cases hc : h.absChipId = m.chipId <;> simp [Loc.doneY, Loc.offChip, loc, dest, hc]

theorem done_iff : (m.loc t).done h = true ↔ m.dest h = t := by
  rw [Loc.done, Bool.and_eq_true, doneX_iff, doneY_iff]
  constructor
  · rintro ⟨hx, hy⟩
    cases t
    exact congrArg₂ Tile.mk hx hy
  · rintro rfl
    exact ⟨rfl, rfl⟩

theorem requests_n : m.Requests h t .n ↔
    ((m.dest h).x = t.x ∧ (m.dest h).y < t.y) ∨ (h.finalBits = finalNorth ∧ m.dest h = t) := by
  simp [Requests, Loc.routeReq, Loc.north, Loc.northCalc, doneX_iff, lessY_iff, done_iff]

theorem requests_s : m.Requests h t .s ↔
    ((m.dest h).x = t.x ∧ t.y < (m.dest h).y) ∨ (h.finalBits = finalSouth ∧ m.dest h = t) := by
  simp [Requests, Loc.routeReq, Loc.south, Loc.southCalc, doneX_iff, moreY_iff, done_iff]

theorem requests_e : m.Requests h t .e ↔
    t.x < (m.dest h).x ∨ (h.finalBits = finalEast ∧ m.dest h = t) := by
  simp [Requests, Loc.routeReq, Loc.east, moreX_iff, done_iff]

theorem requests_w : m.Requests h t .w ↔
    (m.dest h).x < t.x ∨ (h.finalBits = finalWest ∧ m.dest h = t) := by
  simp [Requests, Loc.routeReq, Loc.west, lessX_iff, done_iff]

theorem requests_p : m.Requests h t .p ↔ h.finalBits = finalNone ∧ m.dest h = t := by
  simp [Requests, Loc.routeReq, Loc.proc, done_iff]

/-- At its destination a packet asks for the port its final bits name, and for no other. -/
theorem requests_dest : m.Requests h (m.dest h) q ↔ finalPort h.finalBits = some q := by
  have hlt : ∀ a : BitVec XY_WIDTH, ¬ a < a := fun a => BitVec.lt_irrefl a
  cases q
  all_goals
    simp only [requests_n, requests_s, requests_e, requests_w, requests_p, hlt, and_false, and_true, false_or]
    generalize h.finalBits = f
    revert f
    decide

/-- The hops of the X dimension come first, each towards the destination. -/
theorem requests_x (hx : t.x ≠ (m.dest h).x) :
    m.Requests h t q ↔ (q = .e ∧ t.x < (m.dest h).x) ∨ (q = .w ∧ (m.dest h).x < t.x) := by
  have hne : m.dest h ≠ t := fun he => hx (by rw [he])
  have hx' : (m.dest h).x ≠ t.x := hx.symm
  cases q <;> simp [requests_n, requests_s, requests_e, requests_w, requests_p, hne, hx']

theorem requests_y (hx : t.x = (m.dest h).x) (hy : t.y ≠ (m.dest h).y) :
    m.Requests h t q ↔ (q = .s ∧ t.y < (m.dest h).y) ∨ (q = .n ∧ (m.dest h).y < t.y) := by
  have hne : m.dest h ≠ t := fun he => hy (by rw [he])
  cases q <;> simp [requests_n, requests_s, requests_e, requests_w, requests_p, hne, hx]

theorem toNat_pred {a b : BitVec 8} (h : b < a) : (a - 1).toNat + 1 = a.toNat := by
  have hpos : 0 < a.toNat := Nat.zero_lt_of_lt (BitVec.lt_def.mp h)
  rw [Counter.toNat_pred hpos, Nat.sub_add_cancel hpos]

/-- What a hop that a packet asks for leads to. -/
structure Hop (m : Mesh) (h : Header) (t : Tile) (q : Port) (t' : Tile) : Prop where
  requests : m.Requests h t q
  only : ∀ q', m.Requests h t q' → q' = q
  neighbor : m.neighbor t q = some t'
  mem : m.Contains t'
  dist : m.dist h t' + 1 = m.dist h t
  y_last : t.x = (m.dest h).x → q.IsY ∧ t'.x = (m.dest h).x

theorem hop_x (hd : m.Contains (m.dest h)) (ht : m.Contains t) (hx : t.x ≠ (m.dest h).x) :
    ∃ q t', m.Hop h t q t' := by
  have hn : t.x.toNat ≠ (m.dest h).x.toNat := fun he => hx (BitVec.eq_of_toNat_eq he)
  have hreq := fun q => requests_x (q := q) hx
  rcases Nat.lt_or_gt_of_ne hn with hlt | hlt
  · have hlt' : t.x < (m.dest h).x := hlt
    have hs := Counter.toNat_succ_of_lt hlt'
    refine ⟨.e, ⟨t.x + 1, t.y⟩, (hreq .e).mpr (.inl ⟨rfl, hlt'⟩), ?_, ?_, ?_, ?_, fun he => absurd he hx⟩
    · intro q' hq'
      rcases (hreq q').mp hq' with ⟨rfl, _⟩ | ⟨_, hgt⟩
      · rfl
      · exact absurd (BitVec.lt_def.mp hgt) (by omega)
    · have := hd.1
      exact if_neg (by omega)
    · have := hd.1
      exact ⟨by change (t.x + 1).toNat < _; omega, ht.2⟩
    · simp only [Mesh.dist, distX, distY]
      omega
  · have hlt' : (m.dest h).x < t.x := hlt
    have hs := toNat_pred hlt'
    refine ⟨.w, ⟨t.x - 1, t.y⟩, (hreq .w).mpr (.inr ⟨rfl, hlt'⟩), ?_, ?_, ?_, ?_, fun he => absurd he hx⟩
    · intro q' hq'
      rcases (hreq q').mp hq' with ⟨_, hgt⟩ | ⟨rfl, _⟩
      · exact absurd (BitVec.lt_def.mp hgt) (by omega)
      · rfl
    · refine if_neg fun h0 => ?_
      rw [h0] at hlt
      exact absurd hlt (Nat.not_lt_zero _)
    · have := ht.1
      exact ⟨by change (t.x - 1).toNat < _; omega, ht.2⟩
    · simp only [Mesh.dist, distX, distY]
      omega

theorem hop_y (hd : m.Contains (m.dest h)) (ht : m.Contains t) (hx : t.x = (m.dest h).x)
    (hy : t.y ≠ (m.dest h).y) : ∃ q t', m.Hop h t q t' := by
  have hn : t.y.toNat ≠ (m.dest h).y.toNat := fun he => hy (BitVec.eq_of_toNat_eq he)
  have hreq := fun q => requests_y (q := q) hx hy
  rcases Nat.lt_or_gt_of_ne hn with hlt | hlt
  · have hlt' : t.y < (m.dest h).y := hlt
    have hs := Counter.toNat_succ_of_lt hlt'
    refine ⟨.s, ⟨t.x, t.y + 1⟩, (hreq .s).mpr (.inl ⟨rfl, hlt'⟩), ?_, ?_, ?_, ?_, fun _ => ⟨.inr rfl, hx⟩⟩
    · intro q' hq'
      rcases (hreq q').mp hq' with ⟨rfl, _⟩ | ⟨_, hgt⟩
      · rfl
      · exact absurd (BitVec.lt_def.mp hgt) (by omega)
    · have := hd.2
      exact if_neg (by omega)
    · have := hd.2
      exact ⟨ht.1, by change (t.y + 1).toNat < _; omega⟩
    · simp only [Mesh.dist, distX, distY]
      omega
  · have hlt' : (m.dest h).y < t.y := hlt
    have hs := toNat_pred hlt'
    refine ⟨.n, ⟨t.x, t.y - 1⟩, (hreq .n).mpr (.inr ⟨rfl, hlt'⟩), ?_, ?_, ?_, ?_, fun _ => ⟨.inl rfl, hx⟩⟩
    · intro q' hq'
      rcases (hreq q').mp hq' with ⟨_, hgt⟩ | ⟨rfl, _⟩
      · exact absurd (BitVec.lt_def.mp hgt) (by omega)
      · rfl
    · refine if_neg fun h0 => ?_
      rw [h0] at hlt
      exact absurd hlt (Nat.not_lt_zero _)
    · have := ht.2
      exact ⟨ht.1, by change (t.y - 1).toNat < _; omega⟩
    · simp only [Mesh.dist, distX, distY]
      omega

/-- Short of its destination a packet asks for one port, and it leads one tile closer. -/
theorem hop (hd : m.Contains (m.dest h)) (ht : m.Contains t) (hne : t ≠ m.dest h) :
    ∃ q t', m.Hop h t q t' := by
  by_cases hx : t.x = (m.dest h).x
  · refine hop_y hd ht hx fun hy => hne ?_
    cases t
    exact congrArg₂ Tile.mk hx hy
  · exact hop_x hd ht hx

theorem eq_dest_of_dist (h0 : m.dist h t = 0) : t = m.dest h := by
  have hx : t.x = (m.dest h).x := BitVec.eq_of_toNat_eq (by simp only [dist, distX, distY] at h0; omega)
  have hy : t.y = (m.dest h).y := BitVec.eq_of_toNat_eq (by simp only [dist, distX, distY] at h0; omega)
  cases t
  exact congrArg₂ Tile.mk hx hy

/-- The route of a packet: as many hops as the distance, those of the X dimension first. -/
theorem exists_route (hd : m.Contains (m.dest h)) (ht : m.Contains t) :
    ∃ cs, m.Route h t cs (m.dest h) ∧ cs.length = m.dist h t ∧
      (∀ c ∈ cs, m.Contains c.1 ∧ c.1 ≠ m.dest h) ∧
      cs.Pairwise (fun c c' => c.2.IsY → c'.2.IsY) ∧ (t.x = (m.dest h).x → ∀ c ∈ cs, c.2.IsY) := by
  induction hn : m.dist h t generalizing t with
  | zero =>
      rw [eq_dest_of_dist hn]
      exact ⟨[], .here _, rfl, by simp, .nil, by simp⟩
  | succ n ih =>
      have hne : t ≠ m.dest h := by
        rintro rfl
        simp [dist, distX, distY] at hn
      obtain ⟨q, t', hop⟩ := hop hd ht hne
      obtain ⟨cs, hroute, hlen, hmem, hpair, hy⟩ := ih hop.mem (by have := hop.dist; omega)
      refine ⟨(t, q) :: cs, .hop hop.requests hop.neighbor hroute, by rw [List.length_cons, hlen], ?_, ?_, ?_⟩
      · exact List.forall_mem_cons.mpr ⟨⟨ht, hne⟩, hmem⟩
      · refine List.pairwise_cons.mpr ⟨fun c hc hqy => ?_, hpair⟩
        -- a hop of the Y dimension is asked for only in the column of the destination
        by_cases hx : t.x = (m.dest h).x
        · exact hy (hop.y_last hx).2 c hc
        · have hX := (requests_x hx).mp hop.requests
          rcases hX with ⟨rfl, _⟩ | ⟨rfl, _⟩ <;> rcases hqy with hq | hq <;> cases hq
      · intro hx
        exact List.forall_mem_cons.mpr ⟨(hop.y_last hx).1, hy (hop.y_last hx).2⟩

/-- An order of the channels: eastward and westward ones, then those of the columns, then the
ones that leave the mesh. -/
def rank (m : Mesh) (c : Channel) : Nat :=
  if (m.neighbor c.1 c.2).isNone then m.xTiles + m.yTiles + 1
  else
    match c.2 with
    | .e => c.1.x.toNat
    | .w => m.xTiles - c.1.x.toNat
    | .s => m.xTiles + c.1.y.toNat + 1
    | .n => m.xTiles + (m.yTiles - c.1.y.toNat)
    | .p => 0

/-- Where a hop goes, and on which side of the destination it starts. -/
def Moves (m : Mesh) (h : Header) (t t' : Tile) : Port → Prop
  | .e => t.x.toNat < (m.dest h).x.toNat ∧ t'.x.toNat = t.x.toNat + 1
  | .w => (m.dest h).x.toNat < t.x.toNat ∧ t'.x.toNat + 1 = t.x.toNat
  | .s => t.x = (m.dest h).x ∧ t'.x = t.x ∧ t.y.toNat < (m.dest h).y.toNat ∧ t'.y.toNat = t.y.toNat + 1
  | .n => t.x = (m.dest h).x ∧ t'.x = t.x ∧ (m.dest h).y.toNat < t.y.toNat ∧ t'.y.toNat + 1 = t.y.toNat
  | .p => False

theorem moves (hne : t ≠ m.dest h) (hreq : m.Requests h t q) (hnext : m.neighbor t q = some t') :
    m.Moves h t t' q := by
  have hne' : ¬ m.dest h = t := fun he => hne he.symm
  cases q with
  | p => cases hnext
  | e =>
      have hlt := (requests_e.mp hreq).resolve_right fun hr => hne' hr.2
      obtain ⟨_, hs⟩ := Option.ite_none_left_eq_some.mp hnext
      cases hs
      exact ⟨hlt, Counter.toNat_succ_of_lt hlt⟩
  | w =>
      have hlt := (requests_w.mp hreq).resolve_right fun hr => hne' hr.2
      obtain ⟨_, hs⟩ := Option.ite_none_left_eq_some.mp hnext
      cases hs
      exact ⟨hlt, toNat_pred hlt⟩
  | s =>
      obtain ⟨hx, hlt⟩ := (requests_s.mp hreq).resolve_right fun hr => hne' hr.2
      obtain ⟨_, hs⟩ := Option.ite_none_left_eq_some.mp hnext
      cases hs
      exact ⟨hx.symm, rfl, hlt, Counter.toNat_succ_of_lt hlt⟩
  | n =>
      obtain ⟨hx, hlt⟩ := (requests_n.mp hreq).resolve_right fun hr => hne' hr.2
      obtain ⟨_, hs⟩ := Option.ite_none_left_eq_some.mp hnext
      cases hs
      exact ⟨hx.symm, rfl, hlt, toNat_pred hlt⟩

/-- A packet that leaves the mesh where it is routed to takes its channels in the order of `rank`. -/
theorem rank_lt {c c' : Channel} (h : m.Depends (fun h => m.Routable h ∧ m.Leaves h) c c') :
    m.rank c < m.rank c' := by
  obtain ⟨hd, ⟨hr, hl⟩, ⟨hcx, hcy⟩, hreq, hnext, hreq'⟩ := h
  obtain ⟨t, q⟩ := c
  obtain ⟨t', q'⟩ := c'
  dsimp only at hcx hcy hreq hnext hreq'
  have short : ∀ {u u' : Tile} {r : Port}, m.Requests hd u r → m.neighbor u r = some u' → u ≠ m.dest hd := by
    rintro u u' r hu hn rfl
    rw [hl _ (requests_dest.mp hu)] at hn
    cases hn
  have hmove := moves (short hreq hnext) hreq hnext
  simp only [rank, hnext, Option.isNone_some, Bool.false_eq_true, if_false]
  cases hnext' : m.neighbor t' q' with
  | none =>
      simp only [Option.isNone_none, if_true]
      cases q <;> simp only [Moves] at hmove ⊢ <;> omega
  | some u =>
      have hmove' := moves (short hreq' hnext') hreq' hnext'
      simp only [Option.isNone_some, Bool.false_eq_true, if_false]
      cases q <;> cases q' <;> simp only [Moves] at hmove hmove' ⊢ <;> grind

/-- Along the channels that the packets hold and ask for one never comes back. -/
theorem rank_lt_of_transGen {c c' : Channel}
    (h : Relation.TransGen (m.Depends fun h => m.Routable h ∧ m.Leaves h) c c') : m.rank c < m.rank c' := by
  induction h with
  | single h => exact rank_lt h
  | tail _ h ih => exact Nat.lt_trans ih (rank_lt h)

/-- Dimension-ordered routing: every packet reaches its destination in as many hops as it is away,
asks for one output at every router and leaves by the port its final bits name; the packets that
leave the mesh there close no cycle of channels. -/
theorem routing (m : Mesh) :
    (∀ h : Header, m.Routable h →
      (∀ t, m.Contains t → ∃! q, m.Requests h t q) ∧
      (∀ t, m.Contains t → t ≠ m.dest h → ∃ q t', m.Requests h t q ∧ m.neighbor t q = some t' ∧
        m.Contains t' ∧ m.dist h t' < m.dist h t) ∧
      (∀ t, m.Contains t → ∃ cs, m.Route h t cs (m.dest h) ∧ cs.length = m.dist h t ∧
        cs.Pairwise (fun c c' => c.2.IsY → ¬ c'.2.IsX)) ∧
      (∀ q, m.Requests h (m.dest h) q ↔ finalPort h.finalBits = some q)) ∧
    ∀ c, ¬ Relation.TransGen (m.Depends fun h => m.Routable h ∧ m.Leaves h) c c := by
  refine ⟨fun h hr => ⟨?_, ?_, ?_, fun q => requests_dest⟩, fun c hc => (rank_lt_of_transGen hc).false⟩
  · intro t ht
    by_cases hne : t = m.dest h
    · obtain ⟨q, hq⟩ := Option.isSome_iff_exists.mp hr.final
      subst hne
      refine ⟨q, requests_dest.mpr hq, fun q' hq' => ?_⟩
      exact Option.some.inj ((requests_dest.mp hq').symm.trans hq)
    · obtain ⟨q, t', hop⟩ := hop hr.dest_mem ht hne
      exact ⟨q, hop.requests, hop.only⟩
  · intro t ht hne
    obtain ⟨q, t', hop⟩ := hop hr.dest_mem ht hne
    exact ⟨q, t', hop.requests, hop.neighbor, hop.mem, by have := hop.dist; omega⟩
  · intro t ht
    obtain ⟨cs, hroute, hlen, _, hpair, _⟩ := exists_route hr.dest_mem ht
    refine ⟨cs, hroute, hlen, hpair.imp fun hy hqy hx => ?_⟩
    rcases hy hqy with hq | hq <;> rcases hx with hq' | hq' <;> rw [hq] at hq' <;> cases hq'

def twoByTwo : Mesh := ⟨2, 2, 0, by decide, by decide⟩

theorem routing_corner : ∃ cs, twoByTwo.Route ⟨0, 1, 1, finalNone, 0⟩ ⟨0, 0⟩ cs ⟨1, 1⟩ ∧ cs.length = 2 := by
  obtain ⟨cs, hroute, hlen, _⟩ :=
    ((routing twoByTwo).1 ⟨0, 1, 1, finalNone, 0⟩ ⟨by decide, by decide⟩).2.2.1 ⟨0, 0⟩ (by decide)
  exact ⟨cs, hroute, hlen⟩

/-- Two packets for neighboring tiles, each leaving there by the port to the other tile, hold and ask
for the two channels between them. -/
theorem depends_cyclic :
    ∃ (m : Mesh) (c : Channel), Relation.TransGen (m.Depends m.Routable) c c := by
  refine ⟨twoByTwo, (⟨0, 0⟩, .e), .tail (b := (⟨1, 0⟩, .w)) (.single ?_) ?_⟩
  · exact ⟨⟨0, 1, 0, finalWest, 0⟩, ⟨by decide, by decide⟩, by decide, by decide, by decide, by decide⟩
  · exact ⟨⟨0, 0, 0, finalEast, 0⟩, ⟨by decide, by decide⟩, by decide, by decide, by decide, by decide⟩

end Mesh

end OpenPiton.Router
