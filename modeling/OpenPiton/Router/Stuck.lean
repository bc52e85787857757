import OpenPiton.Router.Flows

namespace OpenPiton.Router

variable {p : NodeParams}

theorem wire_surj (o q : Port) : ∃ r, wire o r = q := by
  cases o <;> cases q <;> first
    | exact ⟨.a, rfl⟩
    | exact ⟨.b, rfl⟩
    | exact ⟨.c, rfl⟩
    | exact ⟨.d, rfl⟩
    | exact ⟨.x, rfl⟩

namespace Node

variable {s : Node p} {o q : Port}

/-- A planned output sends as soon as there are a flit and space. -/
theorem validOut_of_planned (hp : (s.outputCtl o).plannedF = true) (hv : s.inputValid (s.source o) = true)
    (hs : (s.space o).spcAvail = true) : s.validOut o = true := by
  simp only [validOut, OutputControl.validOut, OutputControl.plannedOrDefault, hp, hv, hs, Bool.true_or, Bool.and_self]

/-- An output that does not send is planned from then on, if it was or an input asks for it. -/
theorem planned_step (i : NodeIn p) (hv : s.validOut o = false)
    (h : (s.outputCtl o).plannedF = true ∨ s.routeReq q o = true) : ((s.step i).outputCtl o).plannedF = true := by
  have hstep : ((s.step i).outputCtl o).plannedF = _ := OutputControl.plannedTemp_eq _ _ _ _ _ _
  have hvalid : (s.outputCtl o).validOut (s.inputValid (s.source o)) (s.defaultReady o) (s.space o).spcAvail = false := hv
  rw [hstep, hvalid]
  simp only [Bool.and_false, Bool.false_and, Bool.false_eq_true, if_false, Bool.not_false, Bool.and_true]
  cases hp : (s.outputCtl o).plannedF with
  | true => simp
  | false =>
      obtain ⟨r, rfl⟩ := wire_surj o q
      have hreq := h.resolve_left (by simp [hp])
      have hall : (s.outputCtl o).routeReqAllOrWithPlanned (fun r => s.routeReq (wire o r) o) = true :=
        OutputControl.routeReqAllOrWithPlanned_iff.mpr ⟨r, hreq, by simp [OutputControl.routeReqMask, hp]⟩
      simp [hall]

end Node

namespace Traffic

variable {s : Traffic p} {waiting : Port → List p.Flit} {o q : Port}

namespace Wormhole

theorem inputValid_of_ne (h : s.Wormhole waiting) (hw : waiting q ≠ []) : s.node.inputValid q = true :=
  (h.nib q).dataAvail_iff.mpr hw

/-- The header of a packet that is in front asks for its output. -/
theorem routeReq_of_header (h : s.Wormhole waiting) (hl : s.left q = 0) {f : p.Flit} {rest : List p.Flit}
    (hw : waiting q = f :: rest) (hr : p.Requests f o) : s.node.routeReq q o = true := by
  have hv := h.inputValid_of_ne (q := q) (by simp [hw])
  have hloc : s.node.myLoc = p.loc := h.loc.resolve_right fun hno => by simp [hno q] at hw
  have hheader : (s.node.inputCtl q).header (s.node.inputValid q) = true := by
    rw [InputControl.header, (h.tracks q).headerTemp_eq, hl, hv]
    rfl
  have hn := h.nib q
  rw [hw] at hn
  have hdata : s.node.inputData q = f := hn.dataVal_eq
  rw [Node.routeReq, hheader, hdata, hloc]
  exact hr

end Wormhole

end Traffic

namespace Net

variable {m : Mesh} {offsetLen : Nat} (s : Net m offsetLen)

/-- Every packet that a router got is one that leaves the mesh. -/
def Admitted : Prop :=
  ∀ t q, ∀ x ∈ Framed.places (m.params offsetLen t).lengthFlit ((s t).arrived q), m.Admits (header x.2.head)

/-- No packet is under way from outside. -/
def Whole : Prop :=
  ∀ t q, m.behind t q = none → Framed.left (m.params offsetLen t).lengthFlit ((s t).arrived q) = 0

/-- Nothing moves: each output that a flit is for is planned, only a block that holds flits keeps its
link without space, and the outputs to the outside have it. -/
structure Settled (waiting : m.Site → Port → List (BitVec (64 * 2 ^ offsetLen))) : Prop where
  still : ∀ t o, (s t).node.validOut o = false
  planned : ∀ t q o, (s t).Bound (waiting t) q o → ((s t).node.outputCtl o).plannedF = true
  full : ∀ t o t', m.behind t o = some t' → ((s t).node.space o).spcAvail = false → waiting t' o.opposite ≠ []
  exit : ∀ t o, m.behind t o = none → ((s t).node.space o).spcAvail = true

variable {s} {waiting : m.Site → Port → List (BitVec (64 * 2 ^ offsetLen))} {t t' : m.Site} {q o : Port}

theorem exists_requests {h : Header} (ha : m.Admits h) (t : m.Site) : ∃ o, m.Requests h t.1 o := by
  by_cases hd : t.1 = m.dest h
  · obtain ⟨o, ho⟩ := Option.isSome_iff_exists.mp ha.routable.final
    exact ⟨o, by rw [hd]; exact Mesh.requests_dest.mpr ho⟩
  · obtain ⟨o, -, hreq, -⟩ := Mesh.exists_onward (c := (t, .p)) ha hd
    exact ⟨o, hreq⟩

/-- The channels of an admitted packet come in the order of their ranks. -/
theorem rank_lt_of_requests {h : Header} (ha : m.Admits h) (hreq : m.Requests h t.1 o) (hb : m.behind t o = some t')
    {o' : Port} (hreq' : m.Requests h t'.1 o') : m.rank (t.1, o) < m.rank (t'.1, o') :=
  Mesh.rank_lt ⟨h, ⟨ha.routable, ha.leaves⟩, t.2, hreq, Mesh.behind_eq_some.mp hb, hreq'⟩

theorem rank_le (t : m.Site) (o : Port) : m.rank (t.1, o) ≤ m.xTiles + m.yTiles + 1 := by
  have := t.2.1
  have := t.2.2
  unfold Mesh.rank
  split
  · exact Nat.le_refl _
  · cases o <;> dsimp only <;> omega

namespace Sound

/-- The last place of what a router got over a link is that of the last flit the other sent. -/
theorem cursor_arrived (h : s.Sound waiting) (hb : m.behind t o = some t') :
    Framed.cursor (m.params offsetLen t').lengthFlit ((s t').arrived o.opposite) =
      ((s t).sentTo o).getLast?.map Sent.place := by
  rw [h.arrived_eq hb]
  refine Framed.cursor_eq.trans ((congrArg (fun l => l.getLast?.map Prod.snd) ((h.wormhole t).places_sentTo o)).trans ?_)
  rw [List.getLast?_map, Option.map_map]
  rfl

theorem mem_arrived (h : s.Sound waiting) (t : m.Site) (q : Port) {pl : Framed.Place (BitVec (64 * 2 ^ offsetLen))}
    (hc : Framed.cursor (m.params offsetLen t).lengthFlit ((s t).departed q) = some pl) :
    ∃ f, (f, pl) ∈ Framed.places (m.params offsetLen t).lengthFlit ((s t).arrived q) := by
  rw [Framed.cursor_eq] at hc
  obtain ⟨x, hx, rfl⟩ := Option.map_eq_some_iff.mp hc
  obtain ⟨rest, hrest⟩ := (h.wormhole t).places_arrived q
  refine ⟨x.1, ?_⟩
  rw [hrest]
  exact List.mem_append_left _ (List.mem_of_getLast? hx)

/-- A flit came over a link because the header of its packet asked for it. -/
theorem requests_of_link (h : s.Sound waiting) (hb : m.behind t o = some t')
    {x : BitVec (64 * 2 ^ offsetLen) × Framed.Place (BitVec (64 * 2 ^ offsetLen))}
    (hx : x ∈ Framed.places (m.params offsetLen t').lengthFlit ((s t').arrived o.opposite)) :
    m.Requests (header x.2.head) t.1 o := by
  have hplaces : Framed.places (m.params offsetLen t').lengthFlit ((s t').arrived o.opposite) =
      ((s t).sentTo o).map fun e => (e.flit, e.place) := by
    rw [h.arrived_eq hb]
    exact (h.wormhole t).places_sentTo o
  rw [hplaces] at hx
  obtain ⟨e, he, rfl⟩ := List.mem_map.mp hx
  have hmem := List.mem_filter.mp he
  have hrouted := (h.wormhole t).routed e hmem.1
  rwa [of_decide_eq_true hmem.2] at hrouted

theorem mem_front (h : s.Sound waiting) (hl : (s t).left q = 0) {f : BitVec (64 * 2 ^ offsetLen)}
    {rest : List (BitVec (64 * 2 ^ offsetLen))} (he : waiting t q = f :: rest) :
    (f, (⟨f, 0⟩ : Framed.Place _)) ∈ Framed.places (m.params offsetLen t).lengthFlit ((s t).arrived q) := by
  have hget : (Framed.places (m.params offsetLen t).lengthFlit ((s t).departed q ++ f :: rest))[
      ((s t).departed q).length]? = some (f, Framed.next _ (Framed.cursor _ ((s t).departed q)) f) :=
    Framed.places_getElem?
  rw [Framed.next_of_idle hl, ← he, ← (h.wormhole t).arrived q] at hget
  exact List.mem_of_getElem? hget

/-- The next flit of an input is for the output that the header of its packet asks for. -/
theorem place_of_bound (h : s.Sound waiting) (hb : (s t).Bound (waiting t) q o) :
    ∃ x ∈ Framed.places (m.params offsetLen t).lengthFlit ((s t).arrived q), m.Requests (header x.2.head) t.1 o := by
  rcases hb with ⟨pl, hc, -, hr⟩ | ⟨hl, f, rest, he, hr⟩
  · obtain ⟨f, hf⟩ := h.mem_arrived t q hc
    exact ⟨_, hf, hr⟩
  · exact ⟨_, h.mem_front hl he, hr⟩

/-- A flit in front of an input block is for an output. -/
theorem exists_bound (h : s.Sound waiting) (ha : s.Admitted) (hw : waiting t q ≠ []) :
    ∃ o, (s t).Bound (waiting t) q o := by
  by_cases hl : (s t).left q = 0
  · obtain ⟨f, rest, he⟩ := List.exists_cons_of_ne_nil hw
    obtain ⟨o, ho⟩ := exists_requests (ha t q _ (h.mem_front hl he)) t
    exact ⟨o, .inr ⟨hl, f, rest, he, ho⟩⟩
  · obtain ⟨pl, hc, hne, -⟩ := Framed.next_of_busy (a := 0) hl
    obtain ⟨f, hf⟩ := h.mem_arrived t q hc
    obtain ⟨o, ho⟩ := exists_requests (ha t q _ hf) t
    exact ⟨o, .inl ⟨pl, hc, hne, ho⟩⟩

/-- A planned output whose input holds flits lacks space. -/
theorem no_space (h : s.Sound waiting) (hs : s.Settled waiting) (hp : ((s t).node.outputCtl o).plannedF = true)
    (hw : waiting t ((s t).node.source o) ≠ []) : ((s t).node.space o).spcAvail = false := by
  rw [← Bool.not_eq_true]
  intro hspc
  have hv := Node.validOut_of_planned hp ((h.wormhole t).inputValid_of_ne hw) hspc
  rw [hs.still t o] at hv
  cases hv

/-- An input that is inside a packet holds flits of it, for the router behind it would send them. -/
theorem held_of_busy (h : s.Sound waiting) (ha : s.Admitted) (hwhole : s.Whole) (hs : s.Settled waiting)
    (hb : (s t).Busy q o) : waiting t q ≠ [] := by
  induction hr : m.rank (t.1, o) using Nat.strongRecOn generalizing t q o with
  | ind r ih =>
      intro hw
      obtain ⟨pl, hc, hl, hreq⟩ := hb
      have harr : (s t).arrived q = (s t).departed q := by rw [(h.wormhole t).arrived, hw, List.append_nil]
      obtain ⟨f, hf⟩ := h.mem_arrived t q hc
      have hadm := ha t q _ hf
      cases hq : m.behind t q with
      | none =>
          have hleft := hwhole t q hq
          rw [harr, Framed.left, hc, Option.map_some, Option.getD_some] at hleft
          exact hl hleft
      | some t' =>
          have hq' := Mesh.behind_opposite hq
          have hcur := h.cursor_arrived hq'
          rw [Port.opposite_opposite, harr] at hcur
          rw [hc] at hcur
          obtain ⟨e, he, rfl⟩ := Option.map_eq_some_iff.mp hcur.symm
          have hbusy := (h.wormhole t').last_busy he hl
          obtain ⟨hp, hsrc⟩ := (h.wormhole t').held _ _ hbusy
          obtain ⟨-, -, -, hreq'⟩ := id hbusy
          have hspc : ((s t').node.space q.opposite).spcAvail = true := by
            by_contra hno
            have hfull := hs.full t' _ t hq' (Bool.not_eq_true _ ▸ hno)
            rw [Port.opposite_opposite] at hfull
            exact hfull hw
          have hempty : waiting t' e.input = [] := by
            by_contra hne
            rw [← hsrc] at hne
            rw [h.no_space hs hp hne] at hspc
            cases hspc
          have hmem := List.mem_filter.mp (List.mem_of_getLast? he)
          have hr' : m.Requests (header e.place.head) t'.1 q.opposite := by
            have hrouted := (h.wormhole t').routed e hmem.1
            rwa [of_decide_eq_true hmem.2] at hrouted
          exact ih _ (hr ▸ rank_lt_of_requests hadm hr' hq' hreq) hbusy rfl hempty

/-- Nothing moves only where nothing is held: along the full blocks the ranks of the channels go up. -/
theorem empty_of_settled (h : s.Sound waiting) (ha : s.Admitted) (hwhole : s.Whole) (hs : s.Settled waiting)
    (t : m.Site) (q : Port) : waiting t q = [] := by
  by_contra hw
  obtain ⟨o, hb⟩ := h.exists_bound ha hw
  induction hn : m.xTiles + m.yTiles + 1 - m.rank (t.1, o) using Nat.strongRecOn generalizing t q o with
  | ind n ih =>
      have hp := hs.planned t q o hb
      have hb' := (h.wormhole t).bound o hp
      have hw' : waiting t ((s t).node.source o) ≠ [] := by
        intro hempty
        rcases hb' with hbusy | ⟨-, f, rest, he, -⟩
        · exact h.held_of_busy ha hwhole hs hbusy hempty
        · rw [hempty] at he
          cases he
      have hspc := h.no_space hs hp hw'
      cases hbeh : m.behind t o with
      | none =>
          rw [hs.exit t o hbeh] at hspc
          cases hspc
      | some t' =>
          have hfull := hs.full t o t' hbeh hspc
          obtain ⟨o', hbound⟩ := h.exists_bound ha hfull
          obtain ⟨x, hx, hreq'⟩ := h.place_of_bound hbound
          have hlt := rank_lt_of_requests (ha t' _ x hx) (h.requests_of_link hbeh hx) hbeh hreq'
          have := rank_le t' o'
          exact ih _ (by omega) t' o.opposite hfull o' hbound rfl

end Sound

end Net

end OpenPiton.Router
