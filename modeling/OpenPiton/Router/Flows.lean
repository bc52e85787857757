import OpenPiton.Router.Network

namespace OpenPiton.Router

namespace Mesh

variable (m : Mesh)

/-- A header of a packet that leaves the mesh at the tile it is routed to. -/
structure Admits (h : Header) : Prop where
  routable : m.Routable h
  leaves : m.Leaves h

/-- The input of the next router that a packet comes in at. -/
def onward (h : Header) (c : m.Site × Port) : Option (m.Site × Port) :=
  ((m.loc c.1.1).port h).bind fun o => (m.behind c.1 o).map fun t' => (t', o.opposite)

/-- A packet that came in at `c` comes by `c'`. -/
def OnRoute (h : Header) : m.Site × Port → m.Site × Port → Prop :=
  Relation.ReflTransGen fun c c' => m.onward h c = some c'

/-- The packets of a flow have one way through the mesh. -/
def SameRoute (h h' : Header) : Prop := m.dest h' = m.dest h ∧ h'.finalBits = h.finalBits

instance (h h' : Header) : Decidable (m.SameRoute h h') := inferInstanceAs (Decidable (_ ∧ _))

/-- The inputs that a packet comes in at, `n` routers on at most. -/
def stations (h : Header) : Nat → m.Site × Port → List (m.Site × Port)
  | 0, c => [c]
  | n + 1, c => c :: (m.onward h c).elim [] (stations h n)

variable {m} {h h' : Header} {c c' c₁ c₂ : m.Site × Port}

theorem port_eq_some {t : Tile} {q : Port} : (m.loc t).port h = some q ↔ m.Requests h t q :=
  ((m.loc t).routeReq_iff h).symm

theorem SameRoute.requests (hs : m.SameRoute h h') {t : Tile} {q : Port} :
    m.Requests h' t q ↔ m.Requests h t q := by
  cases q <;> simp only [requests_n, requests_e, requests_s, requests_w, requests_p, hs.1, hs.2]

theorem SameRoute.onward (hs : m.SameRoute h h') (c : m.Site × Port) : m.onward h' c = m.onward h c := by
  have hport : (m.loc c.1.1).port h' = (m.loc c.1.1).port h := by
    apply Option.ext
    intro q
    rw [port_eq_some, port_eq_some, hs.requests]
  rw [Mesh.onward, Mesh.onward, hport]

theorem SameRoute.onRoute (hs : m.SameRoute h h') : m.OnRoute h' c c' ↔ m.OnRoute h c c' := by
  have hrel : (fun c c' => m.onward h' c = some c') = fun c c' => m.onward h c = some c' := by
    funext c c'
    rw [hs.onward]
  rw [OnRoute, OnRoute, hrel]

theorem onward_of_requests {o : Port} {t' : m.Site} (hr : m.Requests h c.1.1 o) (hb : m.behind c.1 o = some t') :
    m.onward h c = some (t', o.opposite) := by
  rw [onward, port_eq_some.mpr hr, Option.bind_some, hb]
  rfl

theorem exists_onward (ha : m.Admits h) (hne : c.1.1 ≠ m.dest h) :
    ∃ o t', m.Requests h c.1.1 o ∧ m.behind c.1 o = some t' ∧ m.onward h c = some (t', o.opposite) ∧
      m.dist h t'.1 + 1 = m.dist h c.1.1 := by
  obtain ⟨o, t', hop⟩ := hop ha.routable.dest_mem c.1.2 hne
  have hb : m.behind c.1 o = some ⟨t', hop.mem⟩ := behind_eq_some.mpr hop.neighbor
  exact ⟨o, ⟨t', hop.mem⟩, hop.requests, hb, onward_of_requests hop.requests hb, hop.dist⟩

theorem onward_dest (ha : m.Admits h) (he : c.1.1 = m.dest h) : m.onward h c = none := by
  rw [onward, Option.bind_eq_none_iff]
  intro o ho
  have hreq := port_eq_some.mp ho
  rw [he] at hreq
  rw [Option.map_eq_none_iff, behind_eq_none, he]
  exact ha.leaves o (requests_dest.mp hreq)

theorem dist_onward (ha : m.Admits h) (ho : m.onward h c = some c') : m.dist h c'.1.1 + 1 = m.dist h c.1.1 := by
  have hne : c.1.1 ≠ m.dest h := by
    intro he
    rw [onward_dest ha he] at ho
    cases ho
  obtain ⟨o, t', -, -, ho', hd⟩ := exists_onward ha hne
  rw [ho] at ho'
  cases ho'
  exact hd

theorem OnRoute.dist_le (ha : m.Admits h) (hc : m.OnRoute h c c') :
    c = c' ∨ m.dist h c'.1.1 < m.dist h c.1.1 := by
  induction hc with
  | refl => exact .inl rfl
  | tail _ ho ih =>
      have := dist_onward ha ho
      rcases ih with rfl | hlt
      · exact .inr (by omega)
      · exact .inr (by omega)

/-- A packet comes by a router once. -/
theorem OnRoute.unique (ha : m.Admits h) (h₁ : m.OnRoute h c c₁) (h₂ : m.OnRoute h c c₂) (he : c₁.1 = c₂.1) :
    c₁ = c₂ := by
  have hone : Relator.RightUnique fun c c' => m.onward h c = some c' := by
    intro a b b' hb hb'
    exact Option.some.inj (hb.symm.trans hb')
  have same : ∀ {a b : m.Site × Port}, m.OnRoute h a b → a.1 = b.1 → a = b := by
    intro a b hab hs
    rcases hab.dist_le ha with heq | hlt
    · exact heq
    · rw [hs] at hlt
      exact absurd hlt (Nat.lt_irrefl _)
  rcases Relation.ReflTransGen.total_of_right_unique hone h₁ h₂ with h₁₂ | h₂₁
  · exact same h₁₂ he
  · exact (same h₂₁ he.symm).symm

end Mesh

/-- Where a flit came into the network, and how many came in there before it. -/
structure Tag (m : Mesh) where
  site : m.Site
  port : Port
  index : Nat

/-- A flit, its place in its packet and its tag. -/
abbrev Item (m : Mesh) (offsetLen : Nat) : Type :=
  (BitVec (64 * 2 ^ offsetLen) × Framed.Place (BitVec (64 * 2 ^ offsetLen))) × Tag m

/-- The network with the tags of what each router sent; no router reads them. -/
structure Tagged (m : Mesh) (offsetLen : Nat) where
  net : Net m offsetLen
  trail (t : m.Site) : List (Sent (m.params offsetLen t) × Tag m) := []

namespace Tagged

variable {m : Mesh} {offsetLen : Nat}

def item {t : m.Site} (x : Sent (m.params offsetLen t) × Tag m) : Item m offsetLen := ((x.1.flit, x.1.place), x.2)

variable (s : Tagged m offsetLen) (i : NetIn m offsetLen)

def itemsTo (t : m.Site) (o : Port) : List (Item m offsetLen) :=
  ((s.trail t).filter fun x => x.1.output = o).map item

def itemsFrom (t : m.Site) (q : Port) : List (Item m offsetLen) :=
  ((s.trail t).filter fun x => x.1.input = q).map item

/-- The flits that came in at a port from outside. -/
def injected (t : m.Site) (q : Port) : List (Item m offsetLen) :=
  (Framed.places (m.params offsetLen t).lengthFlit ((s.net t).arrived q)).zipIdx.map fun x => (x.1, ⟨t, q, x.2⟩)

def itemsIn (t : m.Site) (q : Port) : List (Item m offsetLen) :=
  (m.behind t q).elim (s.injected t q) fun t' => s.itemsTo t' q.opposite

/-- The flits in an input block. -/
def held (t : m.Site) (q : Port) : List (Item m offsetLen) := (s.itemsIn t q).drop ((s.net t).departed q).length

/-- The tag of the flit that an output sends. -/
def tagOf (t : m.Site) (o : Port) : Tag m :=
  let q := (s.net t).node.source o
  ((s.itemsIn t q)[((s.net t).departed q).length]?.map Prod.snd).getD ⟨t, q, 0⟩

def step : Tagged m offsetLen where
  net := s.net.step i
  trail t := s.trail t ++ (Port.all.filter (s.net t).node.validOut).map fun o => ((s.net t).sending o, s.tagOf t o)

def Init : Prop := s.net.Init ∧ ∀ t, s.trail t = []

def WithinCredit : Prop := s.net.WithinCredit i

/-- A flow: the packets that come in at one port and have one way. -/
def InFlow (h : Header) (c : m.Site × Port) (x : Item m offsetLen) : Prop :=
  x.2.site = c.1 ∧ x.2.port = c.2 ∧ m.SameRoute h (header x.1.2.head)

instance (h : Header) (c : m.Site × Port) (x : Item m offsetLen) : Decidable (InFlow h c x) :=
  inferInstanceAs (Decidable (_ ∧ _))

/-- The flits of a flow. -/
def flow (h : Header) (c : m.Site × Port) (l : List (Item m offsetLen)) : List (Item m offsetLen) :=
  l.filter fun x => InFlow h c x

/-- What every run keeps: the tags go with the flits, and a flit stays on the way of its packet. -/
structure Traced (waiting : m.Site → Port → List (BitVec (64 * 2 ^ offsetLen))) : Prop where
  sound : s.net.Sound waiting
  log : ∀ t, (s.trail t).map Prod.fst = (s.net t).log
  sent : ∀ t q, s.itemsFrom t q = (s.itemsIn t q).take ((s.net t).departed q).length
  origin : ∀ t, ∀ x ∈ s.trail t, item x ∈ s.injected x.2.site x.2.port ∧
    m.OnRoute (header x.1.place.head) (x.2.site, x.2.port) (t, x.1.input)

variable {s i} {waiting : m.Site → Port → List (BitVec (64 * 2 ^ offsetLen))} {t t' : m.Site} {o q : Port}

theorem itemsIn_of_behind (h : m.behind t q = some t') : s.itemsIn t q = s.itemsTo t' q.opposite := by
  rw [itemsIn, h, Option.elim_some]

theorem itemsIn_of_none (h : m.behind t q = none) : s.itemsIn t q = s.injected t q := by
  rw [itemsIn, h, Option.elim_none]

theorem injected_fst (t : m.Site) (q : Port) :
    (s.injected t q).map Prod.fst = Framed.places (m.params offsetLen t).lengthFlit ((s.net t).arrived q) := by
  rw [injected, List.map_map]
  exact List.zipIdx_map_fst 0 _

theorem itemsTo_step (i : NetIn m offsetLen) (t : m.Site) (o : Port) : s.itemsTo t o <+: (s.step i).itemsTo t o := by
  apply List.IsPrefix.map
  apply List.IsPrefix.filter
  exact ⟨_, rfl⟩

theorem injected_step (i : NetIn m offsetLen) (t : m.Site) (q : Port) : s.injected t q <+: (s.step i).injected t q := by
  have harr : ((s.step i).net t).arrived q = (s.net t).arrived q ++ ((s.net.inputs i t).dataIn q).toList := rfl
  obtain ⟨rest, hrest⟩ : ∃ rest, Framed.places (m.params offsetLen t).lengthFlit (((s.step i).net t).arrived q) =
      Framed.places (m.params offsetLen t).lengthFlit ((s.net t).arrived q) ++ rest := by
    rw [harr]
    exact Framed.places_append
  apply List.IsPrefix.map
  rw [hrest, List.zipIdx_append]
  exact ⟨_, rfl⟩

theorem itemsIn_step (i : NetIn m offsetLen) (t : m.Site) (q : Port) : s.itemsIn t q <+: (s.step i).itemsIn t q := by
  cases hb : m.behind t q with
  | none =>
      rw [itemsIn_of_none hb, itemsIn_of_none hb]
      exact injected_step i t q
  | some t' =>
      rw [itemsIn_of_behind hb, itemsIn_of_behind hb]
      exact itemsTo_step i t' _

theorem itemsFrom_step (i : NetIn m offsetLen) (t : m.Site) (q : Port) :
    (s.step i).itemsFrom t q = s.itemsFrom t q ++
      (Port.all.filter fun o => (s.net t).node.source o = q ∧ (s.net t).node.validOut o = true).map
        fun o => item ((s.net t).sending o, s.tagOf t o) := by
  rw [itemsFrom, step, List.filter_append, List.filter_map, List.filter_filter, List.map_append, List.map_map, itemsFrom]
  congr 2
  refine List.filter_congr fun o _ => Bool.eq_iff_iff.mpr ?_
  rw [Bool.and_eq_true, decide_eq_true_iff]
  exact and_congr_left fun _ => decide_eq_true_iff

namespace Traced

theorem itemsTo_fst (h : s.Traced waiting) (t : m.Site) (o : Port) :
    (s.itemsTo t o).map Prod.fst = ((s.net t).sentTo o).map fun e => (e.flit, e.place) := by
  rw [Traffic.sentTo, ← h.log t, List.filter_map, List.map_map, itemsTo, List.map_map]
  rfl

/-- The flits that came in are those of the network, with the places they have in its packets. -/
theorem itemsIn_fst (h : s.Traced waiting) (t : m.Site) (q : Port) :
    (s.itemsIn t q).map Prod.fst = Framed.places (m.params offsetLen t).lengthFlit ((s.net t).arrived q) := by
  cases hb : m.behind t q with
  | none =>
      rw [itemsIn_of_none hb]
      exact injected_fst t q
  | some t' =>
      have harr := h.sound.arrived_eq (Mesh.behind_opposite hb)
      rw [Port.opposite_opposite] at harr
      rw [itemsIn_of_behind hb, h.itemsTo_fst, harr]
      exact ((h.sound.wormhole t').places_sentTo _).symm

theorem length_itemsIn (h : s.Traced waiting) (t : m.Site) (q : Port) :
    (s.itemsIn t q).length = ((s.net t).arrived q).length := by
  have hl := congrArg List.length (h.itemsIn_fst t q)
  rwa [List.length_map, Framed.length_places] at hl

/-- A flit that is sent is the first of those held. -/
theorem front (h : s.Traced waiting) {t : m.Site} {o : Port} (hv : (s.net t).node.validOut o = true) :
    (s.itemsIn t ((s.net t).node.source o))[((s.net t).departed ((s.net t).node.source o)).length]? =
      some (item ((s.net t).sending o, s.tagOf t o)) := by
  have hw := h.sound.wormhole t
  have hplace := hw.places_sending hv
  rw [← h.itemsIn_fst, List.getElem?_map, Option.map_eq_some_iff] at hplace
  obtain ⟨x, hx, hfst⟩ := hplace
  have htag : s.tagOf t o = x.2 := by
    rw [tagOf, hx]
    rfl
  rw [hx, htag, item, ← hfst]

theorem sent_step (h : s.Traced waiting) (i : NetIn m offsetLen) (t : m.Site) (q : Port) :
    (s.step i).itemsFrom t q = ((s.step i).itemsIn t q).take (((s.step i).net t).departed q).length := by
  have hw := h.sound.wormhole t
  obtain ⟨l, hl⟩ := itemsIn_step (s := s) i t q
  have hdep : ((s.step i).net t).departed q = (s.net t).departed q ++ _ := hw.departed_step (s.net.inputs i t) q
  have hle : ((s.net t).departed q).length ≤ (s.itemsIn t q).length := by
    rw [h.length_itemsIn, hw.arrived, List.length_append]
    exact Nat.le_add_right _ _
  rw [itemsFrom_step, hdep, ← hl, h.sent t q]
  cases hq : (s.net t).node.thanksAll q with
  | false =>
      have hnone : Port.all.filter (fun o => (s.net t).node.source o = q ∧ (s.net t).node.validOut o = true) = [] := by
        rw [List.filter_eq_nil_iff]
        intro o _ ho
        rw [decide_eq_true_iff] at ho
        rw [((s.net t).node.thanksAll_iff q).mpr ⟨o, ho.2, ho.1⟩] at hq
        cases hq
      rw [hnone, List.map_nil, List.append_nil, if_neg Bool.false_ne_true, List.append_nil, List.take_append_of_le_length hle]
  | true =>
      obtain ⟨o, hv, rfl⟩ := ((s.net t).node.thanksAll_iff q).mp hq
      have hfront := h.front hv
      obtain ⟨hlt, -⟩ := List.getElem?_eq_some_iff.mp hfront
      rw [Traffic.filter_source (fun o' hv' hs => hw.validOut_inj hv' hv hs) hv, if_pos rfl, List.length_append,
        List.length_singleton, List.take_append_of_le_length hlt, List.take_add_one, hfront]
      rfl

/-- A flit that leaves goes on along the way of its packet. -/
theorem origin_sending (h : s.Traced waiting) {t : m.Site} {o : Port} (hv : (s.net t).node.validOut o = true) :
    item ((s.net t).sending o, s.tagOf t o) ∈ s.injected (s.tagOf t o).site (s.tagOf t o).port ∧
      m.OnRoute (header ((s.net t).sending o).place.head) ((s.tagOf t o).site, (s.tagOf t o).port)
        (t, (s.net t).node.source o) := by
  have hmem := List.mem_of_getElem? (h.front hv)
  cases hb : m.behind t ((s.net t).node.source o) with
  | none =>
      rw [itemsIn_of_none hb] at hmem
      obtain ⟨x, -, hx⟩ := List.mem_map.mp hmem
      have htag : s.tagOf t o = ⟨t, (s.net t).node.source o, x.2⟩ := (congrArg Prod.snd hx).symm
      rw [htag] at hmem ⊢
      exact ⟨hmem, .refl⟩
  | some t' =>
      rw [itemsIn_of_behind hb] at hmem
      obtain ⟨x, hx, he⟩ := List.mem_map.mp hmem
      obtain ⟨hx, ho⟩ := List.mem_filter.mp hx
      have htag : x.2 = s.tagOf t o := congrArg Prod.snd he
      have hplace : x.1.place = ((s.net t).sending o).place := congrArg (fun y => y.1.2) he
      obtain ⟨hinj, hroute⟩ := h.origin t' x hx
      rw [he, htag] at hinj
      rw [htag, hplace] at hroute
      refine ⟨hinj, hroute.tail ?_⟩
      have hlog : x.1 ∈ (s.net t').log := by
        rw [← h.log t']
        exact List.mem_map_of_mem hx
      have hreq := (h.sound.wormhole t').routed x.1 hlog
      rw [hplace, of_decide_eq_true ho] at hreq
      have hon := Mesh.onward_of_requests (c := (t', x.1.input)) hreq (Mesh.behind_opposite hb)
      rwa [Port.opposite_opposite] at hon

theorem step (h : s.Traced waiting) (hc : s.WithinCredit i) :
    (s.step i).Traced fun t => (s.net t).nextWaiting (s.net.inputs i t) (waiting t) where
  sound := h.sound.step hc
  log t := by
    change List.map _ (s.trail t ++ _) = (s.net t).log ++ _
    rw [List.map_append, h.log t, List.map_map]
    rfl
  sent := h.sent_step i
  origin := by
    intro t x hx
    have grows : ∀ t q, ∀ y ∈ s.injected t q, y ∈ (s.step i).injected t q := fun t q y hy =>
      (injected_step i t q).subset hy
    rcases List.mem_append.mp hx with hold | hnew
    · obtain ⟨hinj, hroute⟩ := h.origin t x hold
      exact ⟨grows _ _ _ hinj, hroute⟩
    · obtain ⟨o, ho, rfl⟩ := List.mem_map.mp hnew
      obtain ⟨hinj, hroute⟩ := h.origin_sending (List.mem_filter.mp ho).2
      exact ⟨grows _ _ _ hinj, hroute⟩

theorem init (h : s.Init) : s.Traced fun _ _ => [] where
  sound := Net.Sound.init h.1
  log t := by
    obtain ⟨mem, ht⟩ := h.1 t
    rw [h.2 t, ht]
    rfl
  sent t q := by
    obtain ⟨mem, ht⟩ := h.1 t
    rw [itemsFrom, h.2 t, ht]
    rfl
  origin t x hx := by
    rw [h.2 t] at hx
    cases hx

theorem itemsIn_eq (h : s.Traced waiting) (t : m.Site) (q : Port) : s.itemsIn t q = s.itemsFrom t q ++ s.held t q := by
  rw [h.sent t q, held, List.take_append_drop]

theorem length_held (h : s.Traced waiting) (t : m.Site) (q : Port) :
    (s.held t q).length = ((s.net t).node.nib q).elementsInArrayF := by
  have hw := h.sound.wormhole t
  rw [held, List.length_drop, h.length_itemsIn, hw.arrived, List.length_append, (hw.nib q).elements_eq]
  omega

section Flow

variable {hd : Header} {c c' : m.Site × Port}

theorem requests_of_flow (h : s.Traced waiting) {x : Sent (m.params offsetLen t) × Tag m} (hx : x ∈ s.trail t)
    (hf : InFlow hd c (item x)) : m.Requests hd t.1 x.1.output := by
  have hlog : x.1 ∈ (s.net t).log := by
    rw [← h.log t]
    exact List.mem_map_of_mem hx
  exact hf.2.2.requests.mp ((h.sound.wormhole t).routed x.1 hlog)

theorem onRoute_of_flow (h : s.Traced waiting) {x : Sent (m.params offsetLen t) × Tag m} (hx : x ∈ s.trail t)
    (hf : InFlow hd c (item x)) : m.OnRoute hd c (t, x.1.input) := by
  obtain ⟨hsite, hport, hsame⟩ := hf
  have hroute := hsame.onRoute.mp (h.origin t x hx).2
  have hc : (x.2.site, x.2.port) = c := Prod.ext hsite hport
  rwa [hc] at hroute

theorem flow_trail {P : Sent (m.params offsetLen t) × Tag m → Prop} [DecidablePred P]
    (hall : ∀ x ∈ s.trail t, InFlow hd c (item x) → P x) :
    flow hd c (((s.trail t).filter fun x => P x).map item) = flow hd c ((s.trail t).map item) := by
  rw [flow, flow, List.filter_map, List.filter_map, List.filter_filter]
  refine congrArg _ (List.filter_congr fun x hx => Bool.eq_iff_iff.mpr ?_)
  rw [Bool.and_eq_true, decide_eq_true_iff]
  exact ⟨fun hb => hb.1, fun hb => ⟨hb, hall x hx (of_decide_eq_true hb)⟩⟩

/-- A router sends what it gets of a flow, in order, to the one output that the flow takes. -/
theorem flow_router (h : s.Traced waiting) (ha : m.Admits hd) (hc : m.OnRoute hd c c') {o : Port}
    (ho : m.Requests hd c'.1.1 o) :
    flow hd c (s.itemsIn c'.1 c'.2) = flow hd c (s.itemsTo c'.1 o) ++ flow hd c (s.held c'.1 c'.2) := by
  have hfrom : flow hd c (s.itemsFrom c'.1 c'.2) = flow hd c ((s.trail c'.1).map item) := by
    apply flow_trail
    intro x hx hf
    exact congrArg Prod.snd ((h.onRoute_of_flow hx hf).unique ha hc rfl)
  have hto : flow hd c (s.itemsTo c'.1 o) = flow hd c ((s.trail c'.1).map item) := by
    apply flow_trail
    intro x hx hf
    exact (m.loc c'.1.1).routeReq_unique hd (h.requests_of_flow hx hf) ho
  rw [hto, ← hfrom, h.itemsIn_eq]
  exact List.filter_append ..

/-- Along the way of a flow: what came in at a router left the mesh or is held from there on. -/
theorem flow_route (h : s.Traced waiting) (ha : m.Admits hd) {exit : Port} (he : finalPort hd.finalBits = some exit)
    {d : m.Site} (hdest : d.1 = m.dest hd) (n : Nat) (hc : m.OnRoute hd c c') (hn : m.dist hd c'.1.1 = n) :
    flow hd c (s.itemsIn c'.1 c'.2) = flow hd c (s.itemsTo d exit) ++
      (m.stations hd n c').reverse.flatMap fun c'' => flow hd c (s.held c''.1 c''.2) := by
  induction n generalizing c' with
  | zero =>
      have hd' : c'.1 = d := Subtype.ext ((Mesh.eq_dest_of_dist hn).trans hdest.symm)
      have hreq : m.Requests hd c'.1.1 exit := by
        rw [Mesh.eq_dest_of_dist hn]
        exact Mesh.requests_dest.mpr he
      rw [h.flow_router ha hc hreq, hd']
      simp [Mesh.stations, hd']
  | succ n ih =>
      have hne : c'.1.1 ≠ m.dest hd := by
        intro hx
        rw [hx] at hn
        simp [Mesh.dist, Mesh.distX, Mesh.distY] at hn
      obtain ⟨o, t', hreq, hb, hon, hdist⟩ := Mesh.exists_onward ha hne
      have hin : s.itemsIn t' o.opposite = s.itemsTo c'.1 o := by
        rw [itemsIn_of_behind (Mesh.behind_opposite hb), Port.opposite_opposite]
      have hrest := ih (hc.tail hon) (by dsimp only; omega)
      rw [h.flow_router ha hc hreq, ← hin, hrest, Mesh.stations, hon, Option.elim_some, List.reverse_cons,
        List.flatMap_append, List.append_assoc]
      simp

end Flow

theorem of_reaches (h : Machine.Reaches Init Tagged.step WithinCredit s) : ∃ waiting, s.Traced waiting :=
  h.invariant (P := fun s => ∃ waiting, s.Traced waiting) (fun _ hs => ⟨_, init hs⟩)
    fun _ _ ⟨_, hs⟩ hc => ⟨_, hs.step hc⟩

end Traced

end Tagged

open Tagged in
/-- In every run of the routers of a chip, with what comes in from outside within the credits and
whatever the other packets are: the flits of a flow leave the mesh where its headers ask and nowhere
else, each once, in the order they came in, and those that have not are held in the input blocks
along its way. -/
theorem exactly_once_in_order {m : Mesh} {offsetLen : Nat} {s : Tagged m offsetLen}
    (hr : Machine.Reaches Tagged.Init Tagged.step Tagged.WithinCredit s) {hd : Header} (ha : m.Admits hd)
    {exit : Port} (he : finalPort hd.finalBits = some exit) {c : m.Site × Port} (hc : m.behind c.1 c.2 = none) :
    flow hd c (s.injected c.1 c.2) = flow hd c (s.itemsTo ⟨m.dest hd, ha.routable.dest_mem⟩ exit) ++
      (m.stations hd (m.dist hd c.1.1) c).reverse.flatMap (fun c' => flow hd c (s.held c'.1 c'.2)) ∧
    (∀ t o, m.behind t o = none → (t.1, o) ≠ (m.dest hd, exit) → flow hd c (s.itemsTo t o) = []) ∧
    (∀ t q, (s.injected t q).map (fun x => x.1.1) = (s.net t).arrived q) ∧
    (∀ t o, (s.itemsTo t o).map (fun x => x.1.1) = ((s.net t).sentTo o).map Sent.flit) ∧
    ∀ t q, (s.held t q).length = ((s.net t).node.nib q).elementsInArrayF := by
  obtain ⟨waiting, h⟩ := Traced.of_reaches hr
  refine ⟨?_, ?_, ?_, ?_, h.length_held⟩
  · rw [← itemsIn_of_none hc]
    exact h.flow_route ha he rfl _ .refl rfl
  · intro t o hb hne
    apply List.filter_eq_nil_iff.mpr
    intro y hy hf
    obtain ⟨x, hx, rfl⟩ := List.mem_map.mp hy
    obtain ⟨hx, ho⟩ := List.mem_filter.mp hx
    have hreq := h.requests_of_flow hx (of_decide_eq_true hf)
    rw [of_decide_eq_true ho] at hreq
    by_cases hd' : t.1 = m.dest hd
    · rw [hd', Mesh.requests_dest, he] at hreq
      cases hreq
      exact hne (congrArg (·, exit) hd')
    · obtain ⟨o', t', hreq', hb', -⟩ := Mesh.exists_onward (c := (t, .p)) ha hd'
      rw [(m.loc t.1).routeReq_unique hd hreq hreq', hb'] at hb
      cases hb
  · intro t q
    have hmap := congrArg (List.map Prod.fst) (injected_fst (s := s) t q)
    rw [Framed.places_fst, List.map_map] at hmap
    exact hmap
  · intro t o
    have hmap := congrArg (List.map Prod.fst) (h.itemsTo_fst t o)
    rw [List.map_map, List.map_map] at hmap
    exact hmap

section Run

open Mesh (twoByTwo)

/-- A header for the processor of the tile in the east. -/
def eastward : Header := ⟨0, 1, 0, finalNone, 0⟩

theorem eastward_admits : twoByTwo.Admits eastward where
  routable := ⟨by decide, by decide⟩
  leaves q hq := by
    cases hq
    rfl

theorem exactly_once_in_order_one_flit :
    let s := ({ net := emptyNet } : Tagged twoByTwo 0).step fromProcessor
    Tagged.flow eastward (corner, .p) (s.injected corner .p) =
      Tagged.flow eastward (corner, .p)
        (s.itemsTo ⟨twoByTwo.dest eastward, eastward_admits.routable.dest_mem⟩ .p) ++
      (twoByTwo.stations eastward (twoByTwo.dist eastward corner.1) (corner, .p)).reverse.flatMap
        fun c => Tagged.flow eastward (corner, .p) (s.held c.1 c.2) := by
  have hr : Machine.Reaches Tagged.Init Tagged.step Tagged.WithinCredit
      (({ net := emptyNet } : Tagged twoByTwo 0).step fromProcessor) :=
    .next (.start ⟨emptyNet_init, fun _ => rfl⟩) (emptyNet_within fromProcessor)
  exact (exactly_once_in_order hr eastward_admits rfl rfl).1

end Run

end OpenPiton.Router
