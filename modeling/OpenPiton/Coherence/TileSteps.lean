import OpenPiton.Coherence.Invariant

namespace OpenPiton.L2.Request

variable {n : Nat} {q : Request n} {a b : Nat × BitVec 2}

theorem asks_iff : q.asks a = true ↔ q.type.demand = true ∧ q.cacheType = .data ∧ q.addr = a := by
  simp [asks, and_assoc]

theorem guards_iff : q.guards a = true ↔ q.type = .wbguard ∧ q.addr = a := by simp [guards]

/-- A request is about one line. -/
theorem line_eq (h : q.asks a = true ∨ q.guards a = true) : (q.asks b || q.guards b) = (a == b) := by
  rcases h with h | h
  · obtain ⟨hd, hc, rfl⟩ := asks_iff.1 h
    have hg : q.type ≠ .wbguard := by
      intro hg
      simp [hg, MsgType.demand] at hd
    simp [asks, guards, hd, hc, hg]
  · obtain ⟨ht, rfl⟩ := guards_iff.1 h
    simp [asks, guards, ht, MsgType.demand]

end OpenPiton.L2.Request

namespace OpenPiton.Coherence

open L2 (Block Request Noc2 Noc3 MsgType CacheType FwdType CacheSet SetCfg Entry ToMem MemAck)
open L15 (Mesi MshrType)

variable {n : Nat}

namespace View

/-- What a step of a tile may do to what the system holds for it. -/
structure Evolves (x x' : View n) : Prop where
  shrinks : ∀ a, x.Shrinks a x'
  still : x.Still → x'.Still
  due : ∀ type tag di, (∀ k, ((x.line (tag, k)).Reads → di = .data) ∧ (x.Fetches (tag, k) → di = .ins)) →
    x.Due type tag di → x'.Due type tag di
  queue : ∀ q qs, x.queue = q :: qs → ∃ qs', x'.queue = q :: qs'

end View

/-- A step of a tile keeps what the others see. -/
theorem Safe.tile_step {cfg : SetCfg n} {v : Fin n → View n} {h : CacheSet n} {toMem : List ToMem}
    {fromMem : List MemAck} (hs : Safe cfg v h toMem fromMem) {t : Fin n} {x' : View n} (hl : Local t x')
    (he : (v t).Evolves x') : Safe cfg (Function.update v t x') h toMem fromMem := by
  have hsh (u : Fin n) (a : Addr) : (v u).Shrinks a (Function.update v t x' u) := by
    by_cases hu : u = t
    · subst hu
      simpa using he.shrinks a
    · simpa [hu] using View.Shrinks.refl (v u) a
  have hstill (u : Fin n) (h : (v u).Still) : (Function.update v t x' u).Still := by
    by_cases hu : u = t
    · subst hu
      simpa using he.still h
    · simpa [hu] using h
  refine ⟨?_, hs.directory.shrink hsh, ?_, ?_, fun hm => ⟨fun u => hstill u ((hs.memory hm).1 u), (hs.memory hm).2⟩⟩
  · intro u
    by_cases hu : u = t
    · subst hu
      simpa using hl
    · simpa [hu] using hs.tile u
  · intro e hm
    obtain ⟨hp, qs, hq⟩ := hs.entry e hm
    refine ⟨hp, ?_⟩
    by_cases hu : e.req.src = t
    · obtain ⟨qs', hq'⟩ := he.queue _ _ (hu ▸ hq)
      exact ⟨qs', by simpa [hu] using hq'⟩
    · exact ⟨qs, by simpa [hu] using hq⟩
  · rcases hs.phase with h0 | ⟨e, p, hm, hf⟩
    · exact .inl fun u => hstill u (h0 u)
    · refine .inr ⟨e, p, hm, hf.waits, hf.notGuard, hf.way, hf.valid, ?_, hf.owner, ?_, fun u hu => hstill u (hf.still u hu)⟩
      · intro hp
        obtain ⟨h1, h2, h3⟩ := hf.inv hp
        exact ⟨h1, h2, fun u hu k =>
          ⟨fun hr => (h3 u hu k).1 ((hsh u _).reads hr), fun hr => (h3 u hu k).2 ((hsh u _).fetches hr)⟩⟩
      · intro u hu
        by_cases hut : u = t
        · subst hut
          simpa using he.due _ _ _ (fun k => (hs.directory.line e.way hf.way hf.valid).di u k) (hf.due u hu)
        · simpa [hut] using hf.due u hu

/-! ## Requests and evictions -/

namespace View

/-- A tile after a move of its own. -/
def moved (x : View n) (tile : Tile) (qs : List (Request n)) (ms : List Noc3) : View n :=
  ⟨tile, x.queue ++ qs, x.noc2, x.noc3 ++ ms⟩

variable {x : View n} {tile : Tile} {qs : List (Request n)} {ms : List Noc3}

theorem line_moved (a : Addr) :
    (x.moved tile qs ms).line a =
      ⟨tile.copy a, tile.mshr a, (x.line a).queue ++ qs.filter fun q => q.asks a || q.guards a, (x.line a).answers,
        (x.line a).backs ++ ms.filter (·.isBack a)⟩ := by
  simp [View.line, moved]

theorem Shrinks.moved {a : Addr} (hc : (tile.copy a).mesi ≠ .i → (x.tile.copy a).mesi ≠ .i)
    (hw : (tile.copy a).mesi.me = true → (x.tile.copy a).mesi.me = true)
    (hi : (tile.instr a).isSome = true → (x.tile.instr a).isSome = true)
    (hb : (∃ m ∈ ms, m.isBack a = true) → (x.tile.copy a).mesi.me = true) : x.Shrinks a (x.moved tile qs ms) where
  reads := by
    rw [line_moved]
    exact Or.imp hc id
  writes := by
    rw [line_moved]
    exact Or.imp hw id
  fetches := Or.imp hi id
  backs := by
    intro h
    rw [Backs, line_moved] at h
    by_cases h0 : x.Backs a
    · exact .inl h0
    · rw [Backs, not_not] at h0
      refine .inr (.inl (hb ?_))
      simp only [h0, List.nil_append] at h
      obtain ⟨m, hm⟩ := List.exists_mem_of_ne_nil _ h
      exact ⟨m, List.mem_filter.1 hm⟩

theorem Evolves.moved (hs : ∀ a, x.Shrinks a (x.moved tile qs ms)) (hm : ∀ m ∈ ms, m.isAck = false)
    (hb : ∀ a, ∀ m ∈ ms, m.isBack a = true → (x.line a).Writes) : x.Evolves (x.moved tile qs ms) where
  shrinks := hs
  still h := ⟨h.1, fun m hm' => (List.mem_append.1 hm').elim (h.2 m) (hm m)⟩
  due type tag di _ h := by
    rcases h with ⟨⟨ms', w, hn, hf, hv⟩, ha⟩ | ⟨hn, ⟨l, k, d, r, hr, hl, hlast⟩, hlost⟩
    · refine .inl ⟨⟨ms', w, hn, hf, ?_⟩, fun m hm' => (List.mem_append.1 hm').elim (ha m) (hm m)⟩
      split at hv
      · rename_i ht
        simpa [ht] using hv
      · rename_i ht
        rw [if_neg ht]
        exact ⟨hv.1, hv.2.1, fun k hk => hv.2.2 k ((hs (tag, k)).reads hk)⟩
    · refine .inr ⟨hn, ⟨l, k, d, r ++ ms, by simp [View.moved, hr], hl, ?_⟩, ?_⟩
      · intro m hm'
        rcases List.mem_append.1 hm' with h' | h'
        · exact hlast m h'
        · refine ⟨hm m h', fun k' => ?_⟩
          by_contra hback
          have hw := hb (tag, k') m h' (by simpa using hback)
          have := (hlost k').1
          split at this
          · exact this hw
          · exact this hw.reads
      · intro k'
        obtain ⟨h1, h2⟩ := hlost k'
        refine ⟨?_, fun h => h2 ((hs (tag, k')).fetches h)⟩
        split
        · rename_i ht
          rw [if_pos ht] at h1
          exact fun h => h1 ((hs (tag, k')).writes h)
        · rename_i ht
          rw [if_neg ht] at h1
          exact fun h => h1 ((hs (tag, k')).reads h)
  queue q l h := ⟨l ++ qs, by simp [View.moved, h]⟩

end View

section Moves

variable {t : Fin n} {x : View n}

/-- The line of a copy that is written. -/
theorem View.line_update_copy (a b : Addr) (c : Copy) :
    (x.moved { x.tile with copy := Function.update x.tile.copy a c } [] []).line b =
      if b = a then { x.line b with copy := c } else x.line b := by
  by_cases hb : b = a
  · subst hb
    simp [View.moved, View.line]
  · simp [View.moved, View.line, hb]

theorem View.Evolves.copy {a : Addr} {c : Copy} (hi : c.mesi ≠ .i → (x.tile.copy a).mesi ≠ .i)
    (hme : c.mesi.me = true → (x.tile.copy a).mesi.me = true) :
    x.Evolves (x.moved { x.tile with copy := Function.update x.tile.copy a c } [] []) := by
  refine .moved (fun b => .moved ?_ ?_ id (by simp)) (by simp) (by simp)
  · by_cases hb : b = a
    · subst hb
      simpa using hi
    · simp [hb]
  · by_cases hb : b = a
    · subst hb
      simpa using hme
    · simp [hb]

/-- A move keeps the invariant of its tile. -/
theorem moves_keep (hl : Local t x) {tile : Tile} {qs : List (Request n)} {ms : List Noc3}
    (hm : Tile.Moves t x.tile tile qs ms) : Local t (x.moved tile qs ms) ∧ x.Evolves (x.moved tile qs ms) := by
  cases hm with
  | keep =>
      refine ⟨?_, .moved (fun a => .moved id id id (by simp)) (by simp) (by simp)⟩
      simpa [View.moved] using hl
  | write a merge lrsc hme hlr =>
      refine ⟨⟨fun b => ?_, by simpa [View.moved] using hl.typed⟩, .copy (fun _ => TileLine.me_ne_i hme) fun _ => hme⟩
      rw [View.line_update_copy]
      split
      · rename_i hb
        exact (hl.line b).write (hb ▸ hme) rfl
      · exact hl.line b
  | drop a lrsc hne hlr =>
      refine ⟨⟨fun b => ?_, by simpa [View.moved] using hl.typed⟩, .copy (by simp) (by simp [Mesi.me])⟩
      rw [View.line_update_copy]
      split
      · rename_i hb
        exact (hl.line b).drop (hb ▸ hne) rfl (hb ▸ hlr)
      · exact hl.line b
  | writeBack a g hmm hg =>
      have hline (b : Addr) : (x.moved { x.tile with copy := Function.update x.tile.copy a ⟨.i, (x.tile.copy a).data, false⟩ } [g]
          [.writeBack a.1 a.2 (x.tile.copy a).data]).line b =
          if b = a then
            { x.line b with
              copy := ⟨.i, (x.tile.copy a).data, false⟩
              queue := (x.line b).queue ++ [g]
              backs := (x.line b).backs ++ [.writeBack a.1 a.2 (x.tile.copy a).data] }
          else x.line b := by
        have hq := Request.line_eq (b := b) (.inr hg.guards)
        by_cases hb : b = a
        · subst hb
          simp [View.moved, View.line, hq]
        · have hn : (a == b) = false := by simpa using Ne.symm hb
          simp [View.moved, View.line, hq, hb, hn]
      have hme : (x.tile.copy a).mesi.me = true := by simp [hmm, Mesi.me]
      have hback (b : Addr) : Noc3.isBack (.writeBack a.1 a.2 (x.tile.copy a).data) b = true → b = a := by
        simpa using Eq.symm
      refine ⟨⟨fun b => ?_, ?_⟩, .moved (fun b => .moved ?_ ?_ id ?_) (by simp [Noc3.isAck]) ?_⟩
      · rw [hline]
        split
        · rename_i hb
          exact (hl.line b).writeBack (hb ▸ hmm) ⟨rfl, rfl⟩ (Request.guards_iff.1 hg.guards).1 _
        · exact hl.line b
      · intro q hq
        rcases List.mem_append.1 hq with hq | hq
        · exact hl.typed q hq
        · rw [List.mem_singleton.1 hq]
          have ht := (Request.guards_iff.1 hg.guards).1
          exact ⟨hg.src, fun _ => hg.cacheType, by simp [hg.cacheType], by simp [ht]⟩
      · by_cases hb : b = a <;> simp [hb]
      · by_cases hb : b = a <;> simp [hb, Mesi.me]
      · rintro ⟨m, hm, hb⟩
        rw [List.mem_singleton.1 hm] at hb
        rw [hback b hb]
        exact hme
      · intro b m hm hb
        rw [List.mem_singleton.1 hm] at hb
        rw [hback b hb]
        exact .inl hme
  | ask a m q hn hok hc hq =>
      have hline (b : Addr) : (x.moved { x.tile with mshr := Function.update x.tile.mshr a (some m) } [q] []).line b =
          if b = a then { x.line b with mshr := some m, queue := (x.line b).queue ++ [q] } else x.line b := by
        have hq := Request.line_eq (b := b) (.inl hq.asks)
        by_cases hb : b = a
        · subst hb
          simp [View.moved, View.line, hq]
        · have hn : (a == b) = false := by simpa using Ne.symm hb
          simp [View.moved, View.line, hq, hb, hn]
      refine ⟨⟨fun b => ?_, ?_⟩, .moved (fun b => .moved id id id (by simp)) (by simp) (by simp)⟩
      · rw [hline]
        split
        · rename_i hb
          subst hb
          exact (hl.line b).ask hn hok (hc.imp And.left id) (Request.asks_iff.1 hq.asks).1 hq.accepts hq.mshrType
        · exact hl.line b
      · intro q' hq'
        rcases List.mem_append.1 hq' with hq' | hq'
        · exact hl.typed q' hq'
        · rw [List.mem_singleton.1 hq']
          obtain ⟨hd, hc, -⟩ := Request.asks_iff.1 hq.asks
          refine ⟨hq.src, fun _ => hc, by simp [hc], fun op ho => ?_⟩
          simp [ho, MsgType.demand] at hd
  | merge a m f hm =>
      refine ⟨⟨fun b => ?_, by simpa [View.moved] using hl.typed⟩,
        .moved (fun b => .moved id id id (by simp)) (by simp) (by simp)⟩
      by_cases hb : b = a
      · subst hb
        simpa [View.moved, View.line] using (hl.line b).merge hm f
      · simpa [View.moved, View.line, hb] using hl.line b
  | send q hq =>
      refine ⟨⟨fun b => ?_, ?_⟩, .moved (fun b => .moved id id id (by simp)) (by simp) (by simp)⟩
      · have hnone : (q.asks b || q.guards b) = false := by
          rcases hq.type with ⟨ht, hc, -⟩ | ⟨⟨op, ht⟩, hc, -⟩ <;> simp [Request.asks, Request.guards, ht, hc, MsgType.demand]
        simpa [View.moved, View.line, hnone] using hl.line b
      · intro q' hq'
        rcases List.mem_append.1 hq' with hq' | hq'
        · exact hl.typed q' hq'
        · rw [List.mem_singleton.1 hq']
          rcases hq.type with ⟨ht, hc, hm⟩ | ⟨⟨op, ht⟩, hc, hm⟩
          · exact ⟨hq.src, fun h => absurd ht h, fun _ => hm, by simp [ht]⟩
          · exact ⟨hq.src, fun _ => hc, by simp [hc], fun _ _ => hm⟩
  | dropInstr a =>
      refine ⟨⟨fun b => ?_, by simpa [View.moved] using hl.typed⟩,
        .moved (fun b => .moved id id ?_ (by simp)) (by simp) (by simp)⟩
      · simpa [View.moved, View.line] using hl.line b
      · by_cases hb : b = a <;> simp [hb]

end Moves

end OpenPiton.Coherence
