import OpenPiton.Router.Node
import OpenPiton.Lib.Machine

namespace OpenPiton.Router

open Framed

variable {p : NodeParams}

/-- A header asks for the output. -/
def NodeParams.Requests (p : NodeParams) (flit : p.Flit) (o : Port) : Prop :=
  p.loc.routeReq (header flit) true o = true

theorem NodeParams.Requests.unique {flit : p.Flit} {o o' : Port} (h : p.Requests flit o)
    (h' : p.Requests flit o') : o = o' :=
  p.loc.routeReq_unique _ h h'

namespace Traffic

variable (s : Traffic p)

/-- The flits that the packet under way at an input still lacks. -/
def left (q : Port) : Nat := Framed.left p.lengthFlit (s.departed q)

/-- An input is inside a packet for the output. -/
def Busy (q o : Port) : Prop :=
  ∃ pl, cursor p.lengthFlit (s.departed q) = some pl ∧ pl.left p.lengthFlit ≠ 0 ∧ p.Requests pl.head o

/-- The next flit of an input, where there is one, is for the output. -/
def Bound (waiting : Port → List p.Flit) (q o : Port) : Prop :=
  s.Busy q o ∨ s.left q = 0 ∧ ∃ f rest, waiting q = f :: rest ∧ p.Requests f o

/-- What every run of the node keeps: the flits behind those that were sent wait in the input
blocks, and an output that is planned or inside a packet belongs to one input. -/
structure Wormhole (waiting : Port → List p.Flit) : Prop where
  arrived : ∀ q, s.arrived q = s.departed q ++ waiting q
  placed : ∀ q, (s.sentFrom q).map (fun e => (e.flit, e.place)) = places p.lengthFlit (s.departed q)
  nib : ∀ q, (s.node.nib q).Holds (log2Elements q) (waiting q)
  credit : ∀ q, s.credit q + (s.node.nib q).yummyOutF.toNat + (waiting q).length = 2 ^ log2Elements q
  loc : s.node.myLoc = p.loc ∨ ∀ q, waiting q = []
  tracks : ∀ q, (s.node.inputCtl q).Tracks (s.left q) (s.node.inputValid q && s.node.inputLength q == 0)
  bound : ∀ o, (s.node.outputCtl o).plannedF = true → s.Bound waiting (s.node.source o) o
  default : ∀ o, (s.node.outputCtl o).plannedF = false → (s.node.outputCtl o).currentRouteF = .a
  held : ∀ q o, s.Busy q o → (s.node.outputCtl o).plannedF = true ∧ s.node.source o = q
  routed : ∀ e ∈ s.log, p.Requests e.place.head e.output
  begun : ∀ q o, s.Busy q o → ∃ e, (s.sentTo o).getLast? = some e ∧
    cursor p.lengthFlit (s.departed q) = some e.place
  last : ∀ o e, (s.sentTo o).getLast? = some e → e.place.left p.lengthFlit ≠ 0 →
    cursor p.lengthFlit (s.departed e.input) = some e.place
  chain : ∀ o, (s.sentTo o).IsChain Follows ∧ ∀ e ∈ (s.sentTo o).head?, e.place.pos = 0

variable {s} {waiting : Port → List p.Flit}

theorem Busy.left_ne {q o : Port} (h : s.Busy q o) : s.left q ≠ 0 := by
  obtain ⟨pl, hc, hl, -⟩ := h
  rw [left, Framed.left, hc]
  exact hl

theorem Bound.unique {q o o' : Port} (h : s.Bound waiting q o) (h' : s.Bound waiting q o') : o = o' := by
  rcases h with hb | ⟨hl, f, rest, hw, hr⟩ <;> rcases h' with hb' | ⟨hl', f', rest', hw', hr'⟩
  · obtain ⟨pl, hc, -, hr⟩ := hb
    obtain ⟨pl', hc', -, hr'⟩ := hb'
    rw [hc] at hc'
    cases hc'
    exact hr.unique hr'
  · exact absurd hl' hb.left_ne
  · exact absurd hl hb'.left_ne
  · rw [hw] at hw'
    cases hw'
    exact hr.unique hr'

theorem Bound.requests {q o : Port} (h : s.Bound waiting q o) {f : p.Flit} {rest : List p.Flit}
    (hw : waiting q = f :: rest) :
    p.Requests (next p.lengthFlit (cursor p.lengthFlit (s.departed q)) f).head o := by
  rcases h with ⟨pl, hc, hl, hr⟩ | ⟨hl, f', rest', hw', hr⟩
  · rw [hc, next, if_neg hl]
    exact hr
  · rw [hw] at hw'
    cases hw'
    rw [next_of_idle hl]
    exact hr

/-- Between two packets nothing is under way, inside of one its input is busy. -/
theorem Bound.busy {q o : Port} (h : s.Bound waiting q o) (hl : s.left q ≠ 0) : s.Busy q o :=
  h.resolve_right fun hi => hl hi.1

namespace Wormhole

theorem front (h : s.Wormhole waiting) {q : Port} (hv : s.node.inputValid q = true) :
    ∃ rest, waiting q = s.node.inputData q :: rest := by
  obtain ⟨f, rest, hw⟩ := List.exists_cons_of_ne_nil ((h.nib q).dataAvail_iff.mp hv)
  have hn := h.nib q
  rw [hw] at hn
  exact ⟨rest, by rw [Node.inputData, hn.dataVal_eq, hw]⟩

theorem routeReq_eq (h : s.Wormhole waiting) {q o : Port} (hr : s.node.routeReq q o = true) :
    s.left q = 0 ∧ ∃ f rest, waiting q = f :: rest ∧ p.Requests f o := by
  have hheader : (s.node.inputCtl q).header (s.node.inputValid q) = true := by
    by_contra hno
    rw [Bool.not_eq_true] at hno
    rw [Node.routeReq, hno] at hr
    cases o <;> simp [Loc.routeReq] at hr
  rw [Node.routeReq, hheader] at hr
  rw [InputControl.header, (h.tracks q).headerTemp_eq, Bool.and_eq_true, beq_iff_eq] at hheader
  obtain ⟨rest, hw⟩ := h.front hheader.1
  have hloc : s.node.myLoc = p.loc := h.loc.resolve_right fun hno => by simp [hno q] at hw
  exact ⟨hheader.2, _, rest, hw, by rw [NodeParams.Requests, ← hloc]; exact hr⟩

theorem source_of_default (h : s.Wormhole waiting) {o : Port}
    (hp : (s.node.outputCtl o).plannedF = false) : s.node.source o = wire o .a := by
  rw [Node.source, h.default o hp]

theorem bound_of_validOut (h : s.Wormhole waiting) {o : Port} (hv : s.node.validOut o = true) :
    s.Bound waiting (s.node.source o) o := by
  cases hp : (s.node.outputCtl o).plannedF with
  | true => exact h.bound o hp
  | false =>
      have hd := (s.node.validOut_spec hv).2.resolve_left (by simp [hp])
      rw [h.source_of_default hp]
      exact .inr (h.routeReq_eq hd)

theorem validOut_inj (h : s.Wormhole waiting) {o o' : Port} (hv : s.node.validOut o = true)
    (hv' : s.node.validOut o' = true) (hs : s.node.source o = s.node.source o') : o = o' := by
  have hb := h.bound_of_validOut hv
  rw [hs] at hb
  exact hb.unique (h.bound_of_validOut hv')

theorem quiet (h : s.Wormhole waiting) {q o : Port} (hb : s.Bound waiting q o)
    (hno : ¬(s.node.validOut o = true ∧ s.node.source o = q)) : s.node.thanksAll q = false := by
  rw [← Bool.not_eq_true, Node.thanksAll_iff]
  rintro ⟨o', hv', hs'⟩
  have hb' := h.bound_of_validOut hv'
  rw [hs'] at hb'
  cases hb.unique hb'
  exact hno ⟨hv', hs'⟩

end Wormhole

theorem filter_source {o : Port} (hinj : ∀ o', s.node.validOut o' = true → s.node.source o' = s.node.source o → o' = o)
    (hv : s.node.validOut o = true) :
    Port.all.filter (fun o' => s.node.source o' = s.node.source o ∧ s.node.validOut o' = true) = [o] := by
  have hiff : ∀ o' ∈ Port.all, decide (s.node.source o' = s.node.source o ∧ s.node.validOut o' = true) =
      decide (o' = o) := by
    intro o' _
    refine decide_eq_decide.mpr ⟨fun h => hinj o' h.2 h.1, ?_⟩
    rintro rfl
    exact ⟨rfl, hv⟩
  rw [List.filter_congr hiff]
  cases o <;> rfl

theorem sentFrom_step (i : NodeIn p) (q : Port) :
    (s.step i).sentFrom q = s.sentFrom q ++
      (Port.all.filter fun o => s.node.source o = q ∧ s.node.validOut o = true).map s.sending := by
  rw [sentFrom, step, List.filter_append, List.filter_map, List.filter_filter, sentFrom]
  congr 2
  refine List.filter_congr fun o _ => Bool.eq_iff_iff.mpr ?_
  rw [Bool.and_eq_true, decide_eq_true_iff]
  exact and_congr_left fun _ => decide_eq_true_iff

theorem sentFrom_quiet (i : NodeIn p) {q : Port} (hq : s.node.thanksAll q = false) :
    (s.step i).sentFrom q = s.sentFrom q := by
  have hnone : Port.all.filter (fun o => s.node.source o = q ∧ s.node.validOut o = true) = [] := by
    rw [List.filter_eq_nil_iff]
    intro o _ ho
    rw [decide_eq_true_iff] at ho
    rw [(s.node.thanksAll_iff q).mpr ⟨o, ho.2, ho.1⟩] at hq
    cases hq
  rw [sentFrom_step, hnone, List.map_nil, List.append_nil]

theorem departed_quiet (i : NodeIn p) {q : Port} (hq : s.node.thanksAll q = false) :
    (s.step i).departed q = s.departed q := by
  rw [departed, sentFrom_quiet i hq, departed]

theorem sentTo_step (i : NodeIn p) (o : Port) :
    (s.step i).sentTo o = s.sentTo o ++ if s.node.validOut o then [s.sending o] else [] := by
  have hone : Port.all.filter (fun o' => o' = o ∧ s.node.validOut o' = true) =
      if s.node.validOut o then [o] else [] := by
    have hiff : ∀ o' ∈ Port.all, decide (o' = o ∧ s.node.validOut o' = true) =
        (s.node.validOut o && decide (o' = o)) := by
      intro o' _
      by_cases ho : o' = o
      · subst ho
        simp
      · simp [ho]
    rw [List.filter_congr hiff]
    cases s.node.validOut o
    · simp
    · cases o <;> rfl
  rw [sentTo, step, List.filter_append, List.filter_map, List.filter_filter, sentTo]
  congr 1
  have hout : (Port.all.filter fun o' => ((fun e : Sent p => decide (e.output = o)) ∘ s.sending) o' &&
      s.node.validOut o') = if s.node.validOut o then [o] else [] := by
    rw [← hone]
    refine List.filter_congr fun o' _ => Bool.eq_iff_iff.mpr ?_
    rw [Bool.and_eq_true, decide_eq_true_iff]
    exact and_congr_left fun _ => decide_eq_true_iff
  rw [hout]
  split <;> rfl

namespace Wormhole

theorem sentFrom_served (h : s.Wormhole waiting) (i : NodeIn p) {o : Port} (hv : s.node.validOut o = true) :
    (s.step i).sentFrom (s.node.source o) = s.sentFrom (s.node.source o) ++ [s.sending o] := by
  rw [sentFrom_step, filter_source (fun o' hv' hs => h.validOut_inj hv' hv hs) hv]
  rfl

theorem departed_served (h : s.Wormhole waiting) (i : NodeIn p) {o : Port} (hv : s.node.validOut o = true) :
    (s.step i).departed (s.node.source o) = s.departed (s.node.source o) ++ [s.node.dataOut o] := by
  rw [departed, h.sentFrom_served i hv, List.map_append, departed]
  rfl

/-- The place of a flit that was sent is where its input stands from then on. -/
theorem cursor_served (h : s.Wormhole waiting) (i : NodeIn p) {o : Port} (hv : s.node.validOut o = true) :
    cursor p.lengthFlit ((s.step i).departed (s.node.source o)) = some (s.sending o).place := by
  rw [h.departed_served i hv, cursor_snoc]
  rfl

theorem requests_served (h : s.Wormhole waiting) {o : Port} (hv : s.node.validOut o = true) :
    p.Requests (s.sending o).place.head o := by
  obtain ⟨rest, hw⟩ := h.front (s.node.validOut_spec hv).1
  exact (h.bound_of_validOut hv).requests hw

theorem left_served (h : s.Wormhole waiting) (i : NodeIn p) {o : Port} (hv : s.node.validOut o = true) :
    (s.step i).left (s.node.source o) = 0 ↔ s.node.inputTail (s.node.source o) = true := by
  have hvalid := (s.node.validOut_spec hv).1
  rw [left, h.departed_served i hv, left_snoc, Node.inputTail, (h.tracks _).tail_eq, hvalid]
  change (if s.left _ = 0 then _ else s.left _ - 1) = 0 ↔ (if s.left _ = 0 then _ else s.left _ == 1) = true
  split
  · exact beq_iff_eq.symm
  · rw [beq_iff_eq]
    omega

theorem busy_quiet {i : NodeIn p} {q o : Port} (hq : s.node.thanksAll q = false) :
    (s.step i).Busy q o ↔ s.Busy q o := by
  rw [Busy, departed_quiet i hq, Busy]

theorem busy_served (h : s.Wormhole waiting) {i : NodeIn p} {o o' : Port} (hv : s.node.validOut o = true)
    (hb : (s.step i).Busy (s.node.source o) o') : o' = o ∧ s.node.inputTail (s.node.source o) = false := by
  have hl := hb.left_ne
  rw [ne_eq, h.left_served i hv, Bool.not_eq_true] at hl
  obtain ⟨pl, hc, -, hr⟩ := hb
  rw [h.cursor_served i hv] at hc
  cases hc
  exact ⟨hr.unique (h.requests_served hv), hl⟩

end Wormhole

/-- The flits that wait after a cycle. -/
def nextWaiting (s : Traffic p) (i : NodeIn p) (waiting : Port → List p.Flit) (q : Port) : List p.Flit :=
  (waiting q).drop (if s.node.thanksAll q then 1 else 0) ++ (i.dataIn q).toList

namespace Wormhole

theorem waiting_quiet {i : NodeIn p} {q : Port} (hq : s.node.thanksAll q = false) :
    s.nextWaiting i waiting q = waiting q ++ (i.dataIn q).toList := by
  simp [nextWaiting, hq]

theorem bound_quiet {i : NodeIn p} {q o : Port} (hb : s.Bound waiting q o) (hq : s.node.thanksAll q = false) :
    (s.step i).Bound (s.nextWaiting i waiting) q o := by
  rcases hb with hb | ⟨hl, f, rest, hw, hr⟩
  · exact .inl ((busy_quiet hq).mpr hb)
  · refine .inr ⟨?_, f, rest ++ (i.dataIn q).toList, ?_, hr⟩
    · rw [left, departed_quiet i hq]
      exact hl
    · rw [waiting_quiet hq, hw, List.cons_append]

/-- What an output does after a cycle: it keeps its packet, it takes the header of another, or it is
free. -/
theorem output_step (h : s.Wormhole waiting) (i : NodeIn p) (o : Port) :
    (((s.node.outputCtl o).plannedF = true ∧ s.node.validOut o = false ∨
        s.node.validOut o = true ∧ s.node.inputTail (s.node.source o) = false) ∧
      ((s.step i).node.outputCtl o).plannedF = true ∧ (s.step i).node.source o = s.node.source o) ∨
    (¬((s.node.outputCtl o).plannedF = true ∧ s.node.validOut o = false ∨
        s.node.validOut o = true ∧ s.node.inputTail (s.node.source o) = false) ∧
      ((((s.step i).node.outputCtl o).plannedF = true ∧ s.node.routeReq ((s.step i).node.source o) o = true ∧
          (s.node.validOut o = true → (s.step i).node.source o ≠ s.node.source o)) ∨
        ((s.step i).node.outputCtl o).plannedF = false ∧
          ((s.step i).node.outputCtl o).currentRouteF = .a)) := by
  by_cases hkept : (s.node.outputCtl o).plannedF = true ∧ s.node.validOut o = false ∨
      s.node.validOut o = true ∧ s.node.inputTail (s.node.source o) = false
  · refine .inl ⟨hkept, ?_⟩
    obtain ⟨hp, hr⟩ := OutputControl.step_kept (fun r => s.node.routeReq (wire o r) o)
      (fun r => s.node.inputTail (wire o r)) rfl hkept
    exact ⟨hp, congrArg (wire o) hr⟩
  · refine .inr ⟨hkept, ?_⟩
    have hfree : (s.node.outputCtl o).plannedF = false ∧ s.node.validOut o = false ∨
        s.node.validOut o = true ∧ s.node.inputTail (s.node.source o) = true := by
      cases hv : s.node.validOut o <;> cases hp : (s.node.outputCtl o).plannedF <;>
        cases ht : s.node.inputTail (s.node.source o) <;> simp_all
    rcases OutputControl.step_free (fun r => s.node.routeReq (wire o r) o)
      (fun r => s.node.inputTail (wire o r)) (h.default o) hfree with ⟨hp, hr, hne⟩ | hno
    · exact .inl ⟨hp, hr, fun hv he => hne hv (wire_inj o he)⟩
    · exact .inr hno

theorem next_bound (h : s.Wormhole waiting) (i : NodeIn p) (o : Port)
    (hp : ((s.step i).node.outputCtl o).plannedF = true) :
    (s.step i).Bound (s.nextWaiting i waiting) ((s.step i).node.source o) o := by
  rcases h.output_step i o with ⟨hkept, -, hs⟩ | ⟨-, ⟨-, hr, hne⟩ | ⟨hno, -⟩⟩
  · rw [hs]
    rcases hkept with ⟨hp', hv⟩ | ⟨hv, ht⟩
    · exact bound_quiet (h.bound o hp') (h.quiet (h.bound o hp') fun hno => by simp [hv] at hno)
    · refine .inl ⟨_, h.cursor_served i hv, ?_, h.requests_served hv⟩
      have hl : (s.step i).left (s.node.source o) ≠ 0 := by
        rw [ne_eq, h.left_served i hv, ht]
        exact Bool.false_ne_true
      rw [left, Framed.left, h.cursor_served i hv] at hl
      exact hl
  · have hb : s.Bound waiting ((s.step i).node.source o) o := .inr (h.routeReq_eq hr)
    exact bound_quiet hb (h.quiet hb fun hno => hne hno.1 hno.2.symm)
  · rw [hno] at hp
    cases hp

theorem next_held (h : s.Wormhole waiting) (i : NodeIn p) {q o : Port} (hb : (s.step i).Busy q o) :
    ((s.step i).node.outputCtl o).plannedF = true ∧ (s.step i).node.source o = q := by
  have hkept : ((s.node.outputCtl o).plannedF = true ∧ s.node.validOut o = false ∨
      s.node.validOut o = true ∧ s.node.inputTail (s.node.source o) = false) ∧ s.node.source o = q := by
    cases hq : s.node.thanksAll q with
    | false =>
        obtain ⟨hp, hs⟩ := h.held q o ((busy_quiet hq).mp hb)
        refine ⟨.inl ⟨hp, ?_⟩, hs⟩
        rw [← Bool.not_eq_true]
        intro hv
        rw [(s.node.thanksAll_iff q).mpr ⟨o, hv, hs⟩] at hq
        cases hq
    | true =>
        obtain ⟨o', hv, rfl⟩ := (s.node.thanksAll_iff q).mp hq
        obtain ⟨rfl, ht⟩ := h.busy_served hv hb
        exact ⟨.inr ⟨hv, ht⟩, rfl⟩
  rcases h.output_step i o with ⟨-, hp, hs⟩ | ⟨hno, -⟩
  · exact ⟨hp, hs.trans hkept.2⟩
  · exact absurd hkept.1 hno

theorem next_begun (h : s.Wormhole waiting) (i : NodeIn p) {q o : Port} (hb : (s.step i).Busy q o) :
    ∃ e, ((s.step i).sentTo o).getLast? = some e ∧
      cursor p.lengthFlit ((s.step i).departed q) = some e.place := by
  cases hq : s.node.thanksAll q with
  | false =>
      have hold := (busy_quiet hq).mp hb
      have hv : s.node.validOut o = false := by
        rw [← Bool.not_eq_true]
        intro hv
        rw [(s.node.thanksAll_iff q).mpr ⟨o, hv, (h.held q o hold).2⟩] at hq
        cases hq
      obtain ⟨e, he, hc⟩ := h.begun q o hold
      refine ⟨e, ?_, by rw [departed_quiet i hq, hc]⟩
      rw [sentTo_step, hv]
      simpa using he
  | true =>
      obtain ⟨o', hv, rfl⟩ := (s.node.thanksAll_iff q).mp hq
      obtain ⟨rfl, -⟩ := h.busy_served hv hb
      exact ⟨_, by rw [sentTo_step, if_pos hv, List.getLast?_concat], h.cursor_served i hv⟩

/-- A packet that the last flit of an output belongs to is under way at its input. -/
theorem last_busy (h : s.Wormhole waiting) {o : Port} {e : Sent p} (he : (s.sentTo o).getLast? = some e)
    (hl : e.place.left p.lengthFlit ≠ 0) : s.Busy e.input o := by
  have hmem := List.mem_filter.mp (List.mem_of_getLast? he)
  have hr := h.routed e hmem.1
  rw [of_decide_eq_true hmem.2] at hr
  exact ⟨_, h.last o e he hl, hl, hr⟩

theorem next_last (h : s.Wormhole waiting) (i : NodeIn p) {o : Port} {e : Sent p}
    (he : ((s.step i).sentTo o).getLast? = some e) (hl : e.place.left p.lengthFlit ≠ 0) :
    cursor p.lengthFlit ((s.step i).departed e.input) = some e.place := by
  rw [sentTo_step] at he
  cases hv : s.node.validOut o with
  | true =>
      rw [hv, if_pos rfl, List.getLast?_concat] at he
      cases he
      exact h.cursor_served i hv
  | false =>
      rw [hv] at he
      simp only [Bool.false_eq_true, if_false, List.append_nil] at he
      have hb := h.last_busy he hl
      rw [departed_quiet i (h.quiet (.inl hb) fun hno => by simp [hv] at hno)]
      exact h.last o e he hl

theorem sending_head (h : s.Wormhole waiting) {o : Port} (hv : s.node.validOut o = true)
    (hlast : ∀ e, (s.sentTo o).getLast? = some e → e.place.left p.lengthFlit = 0) :
    (s.sending o).place.pos = 0 := by
  have hidle : s.left (s.node.source o) = 0 := by
    by_contra hl
    have hb := (h.bound_of_validOut hv).busy hl
    obtain ⟨e, he, hc⟩ := h.begun _ o hb
    obtain ⟨pl, hc', hl', -⟩ := hb
    rw [hc] at hc'
    cases hc'
    exact hl' (hlast e he)
  rw [sending, next_of_idle hidle]

theorem next_chain (h : s.Wormhole waiting) (i : NodeIn p) (o : Port) :
    ((s.step i).sentTo o).IsChain Follows ∧ ∀ e ∈ ((s.step i).sentTo o).head?, e.place.pos = 0 := by
  obtain ⟨hchain, hhead⟩ := h.chain o
  rw [sentTo_step]
  cases hv : s.node.validOut o with
  | false => simpa using ⟨hchain, hhead⟩
  | true =>
      rw [if_pos rfl]
      constructor
      · refine List.isChain_append.mpr ⟨hchain, List.isChain_singleton _, ?_⟩
        intro e he e' he'
        rw [List.head?_cons, Option.mem_some_iff] at he'
        subst he'
        rw [Option.mem_def] at he
        unfold Follows
        split
        next hl =>
          refine h.sending_head hv fun e₁ he₁ => ?_
          rw [he] at he₁
          cases he₁
          exact hl
        next hl =>
          have hs := (h.held _ o (h.last_busy he hl)).2
          refine ⟨hs, ?_⟩
          rw [sending, hs, h.last o e he hl, next, if_neg hl]
      · intro e he
        cases hto : s.sentTo o with
        | nil =>
            rw [hto, List.nil_append, List.head?_cons, Option.mem_some_iff] at he
            subst he
            exact h.sending_head hv fun e₁ he₁ => by simp [hto] at he₁
        | cons e₁ rest =>
            rw [hto, List.cons_append, List.head?_cons, Option.mem_some_iff] at he
            subst he
            exact hhead e₁ (by rw [hto]; rfl)

theorem next_tracks (h : s.Wormhole waiting) (i : NodeIn p)
    (hnib : ∀ q, ((s.step i).node.nib q).Holds (log2Elements q) (s.nextWaiting i waiting q)) (q : Port) :
    ((s.step i).node.inputCtl q).Tracks ((s.step i).left q)
      ((s.step i).node.inputValid q && (s.step i).node.inputLength q == 0) := by
  have hthanks : s.node.thanksAll q = true → s.node.inputValid q = true := by
    intro hq
    obtain ⟨o, hv, rfl⟩ := (s.node.thanksAll_iff q).mp hq
    exact (s.node.validOut_spec hv).1
  have hstay : s.node.thanksAll q = false → (s.node.inputValid q && s.node.inputLength q == 0) = true →
      ((s.step i).node.inputValid q && (s.step i).node.inputLength q == 0) = true := by
    intro hq hz
    rw [Bool.and_eq_true] at hz
    obtain ⟨rest, hw⟩ := h.front hz.1
    have hn := hnib q
    rw [waiting_quiet hq, hw, List.cons_append] at hn
    have hval : (s.step i).node.inputData q = s.node.inputData q := hn.dataVal_eq
    rw [Bool.and_eq_true, Node.inputLength, hval]
    exact ⟨hn.dataAvail_iff.mpr (List.cons_ne_nil _ _), hz.2⟩
  have hstep := (h.tracks q).step (p.lengthFlit_lt _) hthanks hstay
  have hleft : (s.step i).left q = if s.node.thanksAll q then
      (if s.left q = 0 then s.node.inputLength q else s.left q - 1) else s.left q := by
    cases hq : s.node.thanksAll q with
    | false =>
        rw [left, departed_quiet i hq]
        rfl
    | true =>
        obtain ⟨o, hv, rfl⟩ := (s.node.thanksAll_iff q).mp hq
        rw [left, h.departed_served i hv, left_snoc]
        rfl
  rw [hleft]
  exact hstep

theorem room (h : s.Wormhole waiting) {i : NodeIn p} (hc : s.WithinCredit i) {q : Port}
    (hi : (i.dataIn q).isSome = true) : (waiting q).length < 2 ^ log2Elements q := by
  have := h.credit q
  have := hc q hi
  omega

theorem next_nib (h : s.Wormhole waiting) {i : NodeIn p} (hc : s.WithinCredit i) (q : Port) :
    ((s.step i).node.nib q).Holds (log2Elements q) (s.nextWaiting i waiting q) := by
  refine (h.nib q).step (i.dataIn q) (s.node.thanksAll q) ?_ fun hi => ?_
  · intro hq
    obtain ⟨o, hv, rfl⟩ := (s.node.thanksAll_iff q).mp hq
    obtain ⟨rest, hw⟩ := h.front (s.node.validOut_spec hv).1
    rw [hw]
    exact List.cons_ne_nil _ _
  · have := h.room hc hi
    omega

theorem next_credit (h : s.Wormhole waiting) {i : NodeIn p} (hc : s.WithinCredit i) (q : Port) :
    (s.step i).credit q + ((s.step i).node.nib q).yummyOutF.toNat + (s.nextWaiting i waiting q).length =
      2 ^ log2Elements q := by
  have hcredit := h.credit q
  have hpos : s.node.thanksAll q = true → 0 < (waiting q).length := by
    intro hq
    obtain ⟨o, hv, rfl⟩ := (s.node.thanksAll_iff q).mp hq
    obtain ⟨rest, hw⟩ := h.front (s.node.validOut_spec hv).1
    rw [hw]
    exact Nat.succ_pos _
  have hy : ((s.step i).node.nib q).yummyOutF = s.node.thanksAll q := rfl
  have hsend := hc q
  rw [hy, nextWaiting, List.length_append, List.length_drop]
  simp only [Traffic.step]
  cases hd : i.dataIn q <;> cases hq : s.node.thanksAll q <;>
    simp only [hd, hq, Option.isSome_some, Option.isSome_none, Option.toList_some, Option.toList_none,
      List.length_nil, List.length_singleton, Bool.toNat_true, Bool.toNat_false, if_true, if_false,
      Bool.false_eq_true] at hpos hsend ⊢
  · omega
  · have := hpos trivial
    omega
  · have := hsend trivial
    omega
  · have := hpos trivial
    have := hsend trivial
    omega

theorem step (h : s.Wormhole waiting) {i : NodeIn p} (hc : s.WithinCredit i) :
    (s.step i).Wormhole (s.nextWaiting i waiting) where
  arrived := by
    intro q
    change s.arrived q ++ (i.dataIn q).toList = _
    cases hq : s.node.thanksAll q with
    | false => rw [departed_quiet i hq, waiting_quiet hq, h.arrived q, List.append_assoc]
    | true =>
        obtain ⟨o, hv, rfl⟩ := (s.node.thanksAll_iff q).mp hq
        obtain ⟨rest, hw⟩ := h.front (s.node.validOut_spec hv).1
        rw [h.departed_served i hv, nextWaiting, hq, h.arrived, hw]
        simp [Node.dataOut]
  placed := by
    intro q
    cases hq : s.node.thanksAll q with
    | false => rw [sentFrom_quiet i hq, departed_quiet i hq, h.placed q]
    | true =>
        obtain ⟨o, hv, rfl⟩ := (s.node.thanksAll_iff q).mp hq
        rw [h.sentFrom_served i hv, h.departed_served i hv, places_snoc, List.map_append, h.placed]
        rfl
  nib := h.next_nib hc
  credit := h.next_credit hc
  loc := .inl rfl
  tracks := h.next_tracks i (h.next_nib hc)
  bound := h.next_bound i
  default := by
    intro o hp
    rcases h.output_step i o with ⟨-, hp', -⟩ | ⟨-, ⟨hp', -⟩ | ⟨-, ha⟩⟩
    · rw [hp] at hp'
      cases hp'
    · rw [hp] at hp'
      cases hp'
    · exact ha
  held := fun _ _ hb => h.next_held i hb
  routed := by
    intro e he
    rcases List.mem_append.mp he with hold | hnew
    · exact h.routed e hold
    · obtain ⟨o, ho, rfl⟩ := List.mem_map.mp hnew
      exact h.requests_served (List.mem_filter.mp ho).2
  begun := fun _ _ hb => h.next_begun i hb
  last := fun _ _ he hl => h.next_last i he hl
  chain := h.next_chain i

theorem departed_step (h : s.Wormhole waiting) (i : NodeIn p) (q : Port) :
    (s.step i).departed q = s.departed q ++ if s.node.thanksAll q then [s.node.inputData q] else [] := by
  cases hq : s.node.thanksAll q with
  | false => rw [departed_quiet i hq, if_neg Bool.false_ne_true, List.append_nil]
  | true =>
      obtain ⟨o, hv, rfl⟩ := (s.node.thanksAll_iff q).mp hq
      rw [h.departed_served i hv]
      rfl

theorem mem_sentFrom {e : Sent p} (he : e ∈ s.log) : e ∈ s.sentFrom e.input :=
  List.mem_filter.mpr ⟨he, decide_eq_true rfl⟩

/-- The place of a flit that was sent is one of those of its input. -/
theorem mem_places (h : s.Wormhole waiting) {e : Sent p} (he : e ∈ s.log) :
    (e.flit, e.place) ∈ places p.lengthFlit (s.departed e.input) := by
  rw [← h.placed e.input]
  exact List.mem_map.mpr ⟨e, mem_sentFrom he, rfl⟩

theorem places_arrived (h : s.Wormhole waiting) (q : Port) :
    ∃ rest, places p.lengthFlit (s.arrived q) = places p.lengthFlit (s.departed q) ++ rest := by
  rw [h.arrived q]
  exact places_append

/-- The place that an output is sending from is the next one of its input. -/
theorem places_sending (h : s.Wormhole waiting) {o : Port} (hv : s.node.validOut o = true) :
    (places p.lengthFlit (s.arrived (s.node.source o)))[(s.departed (s.node.source o)).length]? =
      some ((s.sending o).flit, (s.sending o).place) := by
  obtain ⟨rest, hrest⟩ := h.front (s.node.validOut_spec hv).1
  rw [h.arrived, hrest]
  exact places_getElem?

/-- What an output sent is a stream of packets of its own, with the places that its flits had. -/
theorem places_sentTo (h : s.Wormhole waiting) (o : Port) :
    places p.lengthFlit ((s.sentTo o).map Sent.flit) = (s.sentTo o).map fun e => (e.flit, e.place) := by
  obtain ⟨hchain, hhead⟩ := h.chain o
  have hmap : (s.sentTo o).map Sent.flit = ((s.sentTo o).map fun e => (e.flit, e.place)).map Prod.fst := by
    rw [List.map_map]
    rfl
  rw [hmap]
  apply places_of_chain
  · rw [List.isChain_map]
    refine hchain.imp fun e e' hf => ?_
    unfold Follows at hf
    split at hf
    next hl =>
      rw [if_pos hl]
      exact hf
    next hl =>
      rw [if_neg hl]
      exact hf.2
  · intro x hx
    rw [List.head?_map] at hx
    obtain ⟨e, he, rfl⟩ := Option.mem_map.mp hx
    exact hhead e he
  · intro x hx
    obtain ⟨e, he, rfl⟩ := List.mem_map.mp hx
    exact mem_places_head (h.mem_places (List.mem_filter.mp he).1)

theorem init (h : s.Init) : s.Wormhole fun _ => [] := by
  obtain ⟨mem, rfl⟩ := h
  have hidle : ∀ q o, ¬(Traffic.Busy (p := p) { node := { nib := fun q => ⟨mem q, 0, 0, 0, false⟩ } } q o) :=
    fun q o hb => hb.left_ne rfl
  exact {
    arrived := fun _ => rfl
    placed := fun _ => rfl
    nib := fun q => InputBlk.Holds.empty (mem q)
    credit := fun _ => rfl
    loc := .inr fun _ => rfl
    tracks := fun _ => InputControl.Tracks.reset
    bound := fun _ hp => by cases hp
    default := fun _ _ => rfl
    held := fun q o hb => absurd hb (hidle q o)
    routed := fun _ he => by cases he
    begun := fun q o hb => absurd hb (hidle q o)
    last := fun _ _ he => by cases he
    chain := fun _ => ⟨List.isChain_nil, fun _ he => by cases he⟩ }

end Wormhole

end Traffic

/-- In every run of the node, with arrivals within the credits and any yummies: what an input got is
what was sent from it, in order, and what waits in its block; a flit that was sent left where the
header of its packet asks; and each output sent whole packets one after the other. -/
theorem wormhole_integrity {s : Traffic p}
    (hr : Machine.Reaches Traffic.Init Traffic.step Traffic.WithinCredit s) :
    (∀ q, ∃ waiting, (s.node.nib q).Holds (log2Elements q) waiting ∧ s.arrived q = s.departed q ++ waiting ∧
      (s.sentFrom q).map (fun e => (e.flit, e.place)) <+: places p.lengthFlit (s.arrived q)) ∧
    (∀ e ∈ s.log, ∀ o, p.Requests e.place.head o ↔ o = e.output) ∧
    ∀ o, (s.sentTo o).IsChain Traffic.Follows ∧ ∀ e ∈ (s.sentTo o).head?, e.place.pos = 0 := by
  obtain ⟨waiting, h⟩ := hr.invariant (P := fun s => ∃ waiting, s.Wormhole waiting)
    (fun _ h => ⟨_, Traffic.Wormhole.init h⟩) fun _ _ ⟨_, h⟩ hc => ⟨_, h.step hc⟩
  refine ⟨fun q => ⟨waiting q, h.nib q, h.arrived q, ?_⟩, fun e he o => ⟨fun hr => ?_, ?_⟩, h.chain⟩
  · rw [h.placed q, h.arrived q]
    obtain ⟨rest, hrest⟩ : ∃ rest, places p.lengthFlit (s.departed q ++ waiting q) =
        places p.lengthFlit (s.departed q) ++ rest := places_append
    exact ⟨rest, hrest.symm⟩
  · exact hr.unique (h.routed e he)
  · rintro rfl
    exact h.routed e he

section Run

def oneTile : NodeParams := ⟨0, ⟨0, 0, 0⟩⟩

def emptyNode : Traffic oneTile where
  node := { nib := fun _ => ⟨fun _ => 0, 0, 0, 0, false⟩ }

/-- A header and one further flit for the processor. -/
def fromSouth : List (NodeIn oneTile) :=
  [{ dataIn := fun q => if q = .s then some (1 <<< 22 : oneTile.Flit) else none },
    { dataIn := fun q => if q = .s then some (7 : oneTile.Flit) else none }, {}]

theorem wormhole_fromSouth :
    ∃ s : Traffic oneTile,
      (s.sentTo .p).map (fun e => (e.input, e.flit)) =
        [(Port.s, (1 <<< 22 : oneTile.Flit)), (Port.s, (7 : oneTile.Flit))] ∧
      (∀ e ∈ s.log, ∀ o, oneTile.Requests e.place.head o ↔ o = e.output) ∧
      ∀ o, (s.sentTo o).IsChain Traffic.Follows ∧ ∀ e ∈ (s.sentTo o).head?, e.place.pos = 0 := by
  have hinit : emptyNode.Init := ⟨_, rfl⟩
  have hmeets : Machine.Meets Traffic.step Traffic.WithinCredit emptyNode fromSouth := by decide +kernel
  have hr := (Machine.Reaches.start hinit).run hmeets
  exact ⟨_, by decide +kernel, (wormhole_integrity hr).2⟩

end Run

end OpenPiton.Router
